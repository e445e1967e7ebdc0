import Stencil.Proofs.Inset.Readers

/-!
# Expressions before different ends

Every reader of the grammar of expressions goes along with itself: what it reads before the end of a line
it reads before a closing bracket too, with readers that nest at least as deep (`Grammar.starts_level`).
-/

namespace Stencil.Script

open Parse

/-! ## Readers that the grammar uses recursively -/

/-- The readers of expressions go along with others, which may nest deeper. -/
structure Grammar.Starts (g g' : Grammar) : Prop where
  expression : Script.Starts true g.expression g'.expression
  disjunction : Script.Starts false g.disjunction g'.disjunction
  bitOr : Script.Starts false g.bitOr g'.bitOr
  factor : Script.Starts false g.factor g'.factor

section

variable {p q : Parse Expr} {g g' : Grammar}

/-! ## Operators -/

/-- Operands that are joined by operators. -/
theorem Starts.leftAssoc {ops : List (String × BinaryOp)} (hops : ops.lookup ")" = none)
    (h : Starts false p q) : Starts false (leftAssoc ops p) (leftAssoc ops q) := by
  refine .line fun l => h.bind fun first => .loop (fun left => ?_) first
  refine .peek (fun x hx => ?_) (Lexeme.forall_isEnd ⟨rfl, ?_⟩ ⟨rfl, ?_⟩ fun _ => ⟨rfl, ?_⟩) ?_
  · cases x with
    | op m =>
        dsimp only
        cases ops.lookup m with
        | none => exact .of_follows (.pure rfl) hx
        | some op => exact .advance (h.goes.bind fun right => .pure rfl)
    | _ => exact .of_follows (.pure rfl) hx
  all_goals dsimp only; rw [hops]
  exact .pure rfl

/-- Operands of comparisons. -/
theorem Grammar.Starts.bitOrOf (h : g.Starts g') : Script.Starts false (Script.bitOr g) (Script.bitOr g') :=
  .leftAssoc rfl (.leftAssoc rfl (.leftAssoc rfl (.leftAssoc rfl (.leftAssoc rfl
    (.leftAssoc rfl h.factor)))))

/-- A token is taken where something is made of it. -/
theorem FollowsAt.takenIfSome {α : Type} {x : Lexeme} (b : Option α) (hx : x.isEnd = false) :
    FollowsAt x false Option.isSome
      (if b.isSome = true then do
        Parse.advance
        pure b
      else pure b)
      (if b.isSome = true then do
        Parse.advance
        pure b
      else pure b) := by
  cases b with
  | none => exact .of_follows (.pure rfl) hx
  | some b => exact .advance (.pure rfl)

/-- Taking a comparison operator. -/
theorem steps_compareOp? : Steps false compareOp? compareOp? := by
  refine .peek (fun x hx => ?_) (Lexeme.forall_isEnd ⟨rfl, rfl⟩ ⟨rfl, rfl⟩ fun _ => ⟨rfl, rfl⟩)
    (.pure rfl)
  cases x with
  | op m => exact .takenIfSome _ hx
  | keyword w =>
      split
      case h_1 heq => cases heq
      case h_2 => exact .advance (.pure rfl)
      case h_3 =>
        refine .peekSecond (fun y hy => ?_)
          (Lexeme.forall_isEnd ⟨rfl, rfl⟩ ⟨rfl, rfl⟩ fun _ => ⟨rfl, rfl⟩)
          (.of_follows (.pure rfl) rfl)
        split
        · exact .advance (.advance (.pure rfl))
        · exact .of_followsAt (.of_follows (.pure rfl) rfl) hy
      case h_4 => exact .advance (.takeWord (.pure rfl) (.pure rfl))
      case h_5 => exact .of_follows (.pure rfl) rfl
  | _ => exact .of_follows (.pure rfl) hx

/-- Comparisons. -/
theorem Grammar.Starts.comparison (h : g.Starts g') :
    Script.Starts false (Script.comparison g) (Script.comparison g') := by
  refine .line fun l => h.bitOrOf.bind fun first => .bind (.loop (fun acc => ?_) []) fun rest => ?_
  · exact .bindStep steps_compareOp? (fun op => h.bitOrOf.goes.bind fun e => .pure rfl) (.pure rfl)
  · cases rest.isEmpty <;> exact .pure rfl

/-- Negations. -/
theorem goes_negations : Goes false negations negations := by
  refine .loop (fun acc => ?_) []
  intro left right he s r ha
  cases ha with
  | ends =>
      obtain ⟨t, ts, u, us, rfl, rfl, ht, -, hu, -⟩ := he.exists_eq
      refine .next (line_cons _ _) (line_cons _ _) (.next (takeWord_cons _ _ _) (takeWord_cons _ _ _) ?_)
      rw [Lexeme.isWord_of_isEnd ht, hu]
      exact .pure .ends (Nat.le_refl _)
  | cons hx ha =>
      refine .next (line_cons _ _) (line_cons _ _) ?_
      exact Follows.takeWord (z := Option.isSome) (.pure rfl) (.pure rfl) he _ _ (.cons hx ha)

/-- There are no negations where no expression goes on. -/
theorem negations_of_isEnd {t : Token} (ht : t.lexeme.isEnd) (ts : List Token) :
    negations (t :: ts) = .ok ([], t :: ts) := by
  refine (Loops.done ?_).loop_eq
  rw [bind_ok (line_cons t ts), bind_ok (takeWord_cons t ts "not"), Lexeme.isWord_of_isEnd ht]
  rfl

/-- Comparisons behind negations. -/
theorem Grammar.Starts.inversion (h : g.Starts g') :
    Script.Starts false (Script.inversion g) (Script.inversion g') :=
  ⟨fun t ts ht => .after (negations_of_isEnd ht ts) (h.comparison.bars.bind t ts ht),
    goes_negations.bind fun _ => h.comparison.goes.bind fun _ => .pure rfl⟩

/-- Operands that are joined by a word. -/
theorem Starts.chain {word : String} {conjunction : Bool} (h : Starts false p q) :
    Starts false (chain word conjunction p) (chain word conjunction q) := by
  refine .line fun l => h.bind fun first => .bind (.loop (fun acc => ?_) []) fun rest => ?_
  · exact .takeWord (h.goes.bind fun e => .pure rfl) (.pure rfl)
  · cases rest.isEmpty <;> exact .pure rfl

/-- Operands that are joined by `or`. -/
theorem Grammar.Starts.disjunctionOf (h : g.Starts g') :
    Script.Starts false (Script.disjunction g) (Script.disjunction g') :=
  .chain (.chain h.inversion)

/-! ## Parameters and functions -/

/-- Where no hints are allowed there is none. -/
theorem goes_noHint (starred : Bool) : Goes false (hint? g false starred) (hint? g' false starred) :=
  .atOp (.of_follows (.pure rfl) rfl) (.pure rfl) (.inl (by decide))

/-- The name of a parameter behind a star. -/
theorem goes_nameWith {α : Type} {isOpen : Bool} (starred : Bool) {f : String → Option Expr → α} :
    Goes isOpen
      (do
        let id ← name
        let hint ← hint? g false starred
        return f id hint)
      (do
        let id ← name
        let hint ← hint? g' false starred
        return f id hint) :=
  .bindTaking .name fun _ => (goes_noHint starred).bind fun _ => .pure rfl

/-- A parameter that is written by its name, with a value or without. Behind a parameter with a value one
without may be at fault. -/
theorem Grammar.Starts.namedParam (h : g.Starts g') {α : Type} {withValue : String → Option Expr → Expr → α}
    {starred plain : String → Option Expr → α} {star defaulted : Bool} {l : Nat} :
    Script.Starts true
      (do
        let id ← name
        let hint ← hint? g false false
        if ← takeOp "=" then
          let d ← g.expression
          return withValue id hint d
        if star then return starred id hint
        if defaulted then report l
        return plain id hint)
      (do
        let id ← name
        let hint ← hint? g' false false
        if ← takeOp "=" then
          let d ← g'.expression
          return withValue id hint d
        if star then return starred id hint
        if defaulted then report l
        return plain id hint) := by
  refine ⟨Bars.name.bind, .bindTaking .name fun id => (goes_noHint false).bind fun hint => ?_⟩
  refine .takeOp (h.expression.goes.bindOpen (fun d => .pure rfl) fun _ => .pure _) ?_ (.inl (by decide))
  cases star with
  | true => exact .pure rfl
  | false =>
      cases defaulted with
      | true => exact .fails fun _ => ⟨_, rfl⟩
      | false => exact .pure rfl

/-- A parameter of a function that is an expression. -/
theorem Grammar.Starts.paramItem (h : g.Starts g') (s : ParamState) :
    Script.Starts true (Script.paramItem g ":" false s) (Script.paramItem g' ":" false s) := by
  refine .line fun l => ?_
  cases s.closed with
  | true => exact ⟨.fails fun _ => ⟨_, rfl⟩, .fails fun _ => ⟨_, rfl⟩⟩
  | false =>
      refine ⟨.peek (Lexeme.forall_isEnd Bars.name.bind Bars.name.bind fun _ => Bars.name.bind),
        .peek (fun x hx => ?_) (Lexeme.forall_isEnd ⟨rfl, rfl⟩ ⟨rfl, rfl⟩ fun _ => ⟨rfl, rfl⟩)
          h.namedParam.goes⟩
      cases x with
      | op m =>
          split
          case h_1 =>
            cases s.slash || s.star || s.params.isEmpty with
            | true => exact .of_follows (.fails fun _ => ⟨_, rfl⟩) hx
            | false => exact .advance (.pure rfl)
          case h_2 =>
            cases s.star with
            | true => exact .of_follows (.fails fun _ => ⟨_, rfl⟩) hx
            | false =>
                refine .advance (.peekBars (fun y hy => ?_)
                  (Lexeme.forall_isEnd Bars.name.bind Bars.name.bind fun _ => Bars.name.bind))
                cases y with
                | op m =>
                    split
                    case h_1 =>
                      refine .peekSecond (fun y hy => ?_) (Lexeme.forall_isEnd ⟨rfl, rfl⟩ ⟨rfl, rfl⟩
                        fun _ => ⟨rfl, rfl⟩) (.of_follows (.fails fun _ => ⟨_, rfl⟩) rfl)
                      cases y with
                      | name id => exact .of_followsAt (.of_follows (.pure rfl) rfl) hy
                      | _ => exact .of_followsAt (.of_follows (.fails fun _ => ⟨_, rfl⟩) rfl) hy
                    case h_2 => exact .of_follows (.fails fun s => by split <;> exact ⟨_, rfl⟩) hy
                    case h_3 heq => exact absurd rfl (heq m)
                | _ => exact .of_follows (goes_nameWith true) hy
          case h_3 =>
            exact .advance (goes_nameWith false)
          case h_4 => exact .of_follows h.namedParam.goes hx
      | _ => exact .of_follows h.namedParam.goes hx

/-- The parameters of a function that is an expression. -/
theorem Grammar.Starts.params (h : g.Starts g') :
    Goes true (Script.params g ":" false) (Script.params g' ":" false) := by
  refine .atOp (.of_follows (.pure rfl) rfl) ?_ (.inl (by decide))
  refine (h.paramItem _).goes.bindOpen (fun first => ?_) fun first => ?_
  · refine .bindOpen (.loopOpen (fun s => ?_) (fun s => ?_) first) (fun s => .pure rfl) fun s => .pure _
    · refine .atOp (.of_follows (.pure rfl) rfl) ?_ (.inl (by decide))
      refine .bindTaking .expectOp fun _ => .atOp (.of_follows (.pure rfl) rfl) ?_ (.inl (by decide))
      exact (h.paramItem s).goes.bindOpen (fun s => .pure rfl) fun s => .pure _
    · exact .atOp (by decide) (.ends (.expectOp (by decide)))
  · refine .bind (.loop (fun s => ?_) first) fun s => .pure _
    exact .atOp (by decide) (.ends (.expectOp (by decide)))

/-- Functions that are expressions. -/
theorem Grammar.Starts.lambda (h : g.Starts g') :
    Script.Starts true (Script.lambda g) (Script.lambda g') := by
  refine .line fun l => .expectWord (h.params.bindOpen (fun ps => ?_) fun ps => ?_)
  · exact .bindTaking .expectOp fun _ => h.expression.goes.bindOpen (fun body => .pure rfl) fun _ => .pure _
  · exact .ends (.expectOp (by decide))

/-! ## Expressions and lists of expressions -/

/-- Looking for words that make an expression ambiguous. -/
theorem goes_startsAmbiguously : Goes false startsAmbiguously startsAmbiguously := by
  refine .peek (fun x hx => ?_) (Lexeme.forall_isEnd ⟨rfl, rfl⟩ ⟨rfl, rfl⟩ fun _ => ⟨rfl, rfl⟩) (.pure rfl)
  cases x with
  | name id =>
      dsimp only
      split
      · exact .of_follows (.pure rfl) hx
      · refine .peekSecond (fun y hy => ?_)
          (Lexeme.forall_isEnd ⟨rfl, rfl⟩ ⟨rfl, rfl⟩ fun _ => ⟨rfl, rfl⟩) (.of_follows (.pure rfl) hx)
        cases y <;> exact .of_followsAt (.of_follows (.pure rfl) hx) hy
  | _ => exact .of_follows (.pure rfl) hx

/-- Nothing is rejected where no expression directly follows. -/
theorem rejectNeighbour_of_not_stray (g : Grammar) (ambiguous : Bool) (e : Expr) {t : Token}
    (ht : t.lexeme.startsStrayExpression = false) (ts : List Token) :
    rejectNeighbour g ambiguous e (t :: ts) = .ok ((), t :: ts) := by
  rw [rejectNeighbour, bind_ok (peek_cons t ts), ht]
  rfl

/-- Looking for an expression that directly follows another one takes nothing. -/
theorem rejectNeighbour_eq_ok {g : Grammar} {ambiguous : Bool} {e : Expr} {t : Token}
    {ts s : List Token} (h : rejectNeighbour g ambiguous e (t :: ts) = .ok ((), s)) : s = t :: ts := by
  have hget (u : List Token) : (get : Parse (List Token)) u = .ok (u, u) := rfl
  have hreports {b c : Bool} (h : (do
      if b then report e.line
      if c then report e.line : Parse Unit) (t :: ts) = .ok ((), s)) : s = t :: ts := by
    cases b <;> cases c <;> cases h
    rfl
  rw [rejectNeighbour, bind_ok (peek_cons t ts)] at h
  split at h
  · rw [bind_ok (hget _), bind_ok (atWord_cons t ts "lambda")] at h
    split at h <;> rw [bind_ok (pure_apply _ _)] at h <;> dsimp only at h
    · generalize g.expression (t :: ts) = r at h
      cases r with
      | error f => cases h; rfl
      | ok r => exact hreports h
    · generalize g.disjunction (t :: ts) = r at h
      cases r with
      | error f => cases h; rfl
      | ok r => exact hreports h
  · cases h
    rfl

/-- Where no expression directly follows another one, reading goes on; where one does, nothing is said. -/
theorem goes_rejectNeighbour (ambiguous : Bool) (e : Expr) :
    Goes true (rejectNeighbour g ambiguous e) (rejectNeighbour g' ambiguous e) := by
  intro left right he s r ha u s' hp
  cases ha with
  | ends =>
      obtain ⟨t, ts, v, us, rfl, rfl, ht, hv, -⟩ := he.exists_eq
      have hleft : t.lexeme.startsStrayExpression = false :=
        Lexeme.forall_isEnd (P := fun x => x.startsStrayExpression = false) rfl rfl (fun _ => rfl) _ ht
      have hright : v.lexeme.startsStrayExpression = false := by
        obtain hv | hv := hv
        · exact Lexeme.forall_isEnd (P := fun x => x.startsStrayExpression = false) rfl rfl (fun _ => rfl) _ hv
        · rw [hv]
          rfl
      rw [rejectNeighbour_of_not_stray g ambiguous e hleft] at hp
      cases hp
      exact .inr ⟨_, rejectNeighbour_of_not_stray g' ambiguous e hright us, .ends, Nat.le_refl _⟩
  | @cons x l d d' k k' s r hx ha =>
      cases hstray : x.startsStrayExpression with
      | true => exact .inl ⟨rfl, _, _, rejectNeighbour_eq_ok hp, hstray⟩
      | false =>
          rw [rejectNeighbour_of_not_stray g ambiguous e hstray] at hp
          cases hp
          exact .inr ⟨_, rejectNeighbour_of_not_stray g' ambiguous e hstray r, .cons hx ha, Nat.le_refl _⟩

/-- Expressions. -/
theorem Grammar.Starts.expressionOf (h : g.Starts g') :
    Script.Starts true (Script.expression g) (Script.expression g') := by
  refine .atWord (.of_follows h.lambda.goes rfl) (.line fun l => ⟨fun t ts ht => ?_, ?_⟩)
  · obtain ⟨a, ha⟩ := exists_startsAmbiguously t ts
    exact .after ha (h.disjunctionOf.bars.bind t ts ht)
  · refine goes_startsAmbiguously.bind fun ambiguous => h.disjunctionOf.goes.bind fun body => .takeWord ?_ ?_
    · refine h.disjunctionOf.goes.bind fun test => .takeWord ?_ ?_
      · exact h.expression.goes.bindOpen (fun orelse => .pure rfl) fun _ => .pure _
      · exact .atOp (.of_follows (.fails fun _ => ⟨_, rfl⟩) rfl) (.fails fun _ => ⟨_, rfl⟩) (.inl (by decide))
    · exact (goes_rejectNeighbour ambiguous body).bindOpen (fun _ => .pure rfl) fun _ => .pure _

/-- An expression that no `:=` follows. -/
theorem Grammar.Starts.unnamed (h : g.Starts g') (l : Nat) : Script.Starts true
    (do
      let e ← g.expression
      if ← atOp ":=" then report l
      if (← atOp "=") && !isPlainDisplay e then
        let ts ← get
        match g.bitOr ts.tail with
        | .ok (_, t :: _) =>
          match t.lexeme with
          | .op "=" | .op ":=" => unexpected
          | _ => report l
        | _ => unexpected
      return e)
    (do
      let e ← g'.expression
      if ← atOp ":=" then report l
      if (← atOp "=") && !isPlainDisplay e then
        let ts ← get
        match g'.bitOr ts.tail with
        | .ok (_, t :: _) =>
          match t.lexeme with
          | .op "=" | .op ":=" => unexpected
          | _ => report l
        | _ => unexpected
      return e) := by
  refine h.expression.bindOpen (fun e => .atOp ?_ (.atOp ?_ (.pure rfl) (.inl (by decide)))
    (.inl (by decide))) fun e => .atOp (by decide) (.atOp (by decide) (.pure e))
  · exact .of_follows (.fails fun _ => ⟨_, rfl⟩) rfl
  · cases isPlainDisplay e with
    | true => exact .of_follows (.pure rfl) rfl
    | false =>
        refine .of_follows (.fails (Fails.behind fun ts s => ?_)) rfl
        split
        · split <;> exact ⟨_, rfl⟩
        · exact ⟨_, rfl⟩

/-- An expression that may bind a name with `:=`. -/
theorem Grammar.Starts.namedExpression (h : g.Starts g') :
    Script.Starts true (Script.namedExpression g) (Script.namedExpression g') := by
  refine .line fun l => ?_
  refine ⟨.peek (Lexeme.forall_isEnd (.peekSecond fun y => (h.unnamed l).bars)
    (.peekSecond fun y => (h.unnamed l).bars) fun _ => .peekSecond fun y => (h.unnamed l).bars),
    .peekBars (fun x hx => ?_) (Lexeme.forall_isEnd (.peekSecond fun y => (h.unnamed l).bars)
    (.peekSecond fun y => (h.unnamed l).bars) fun _ => .peekSecond fun y => (h.unnamed l).bars)⟩
  have hunnamed (y : Lexeme) (hy : y.isEnd = false) :=
    FollowsAtTwo.of_followsAt (.of_follows (h.unnamed l).goes hx) hy
  cases x with
  | name id =>
      refine .peekSecond (fun y hy => ?_) (Lexeme.forall_isEnd ⟨rfl, rfl⟩ ⟨rfl, rfl⟩ fun _ => ⟨rfl, rfl⟩)
        (.of_follows (h.unnamed l).goes hx)
      cases y with
      | op m =>
          split
          case h_1 =>
            exact .advance (.advance (h.expression.goes.bindOpen (fun e => .pure rfl) fun _ => .pure _))
          case h_2 => exact hunnamed _ hy
      | _ => exact hunnamed _ hy
  | _ => exact .of_follows (.peekSecond fun y y' => (h.unnamed l).goes) hx

/-- An item of a display. -/
theorem Grammar.Starts.starNamed (h : g.Starts g') :
    Script.Starts true (Script.starNamed g) (Script.starNamed g') :=
  .line fun _ => .takeOp (by decide) (h.bitOr.goes.bind fun _ => .pure rfl) h.namedExpression

/-- An item of an expression list. -/
theorem Grammar.Starts.starExpression (h : g.Starts g') :
    Script.Starts true (Script.starExpression g) (Script.starExpression g') :=
  .line fun _ => .takeOp (by decide) (h.bitOr.goes.bind fun _ => .pure rfl) h.expression

/-- No more items are read before a stray expression. -/
theorem Stalls.moreItems (item : Parse Expr) (first : Expr) : Stalls true (Script.moreItems item first) := by
  have hcomma : Stalls true (Parse.takeOp "," >>= fun _ => Pure.pure ()) := .takeOp (by decide) (.pure ())
  refine .bind (.loop (fun acc => .atOp (by decide) (.peekSecond fun _ => .pure Option.none)) [first]) fun items => ?_
  exact Stalls.bind hcomma fun _ => .pure _

/-- The items behind a first one. -/
theorem Starts.moreItems (h : Starts true p q) (first : Expr) :
    Goes true (moreItems p first) (moreItems q first) := by
  have hcomma : Goes true (Parse.takeOp "," >>= fun _ => pure ()) (Parse.takeOp "," >>= fun _ => pure ()) :=
    .takeOp (.pure rfl) (.pure rfl) (.inl (by decide))
  have hstalls : Stalls true (Parse.takeOp "," >>= fun _ => pure ()) := .takeOp (by decide) (.pure ())
  refine .bindOpen (.loopOpen (fun acc => .atOp ?_ ?_ (.inl (by decide))) (fun acc => ?_) [first])
    (fun items => hcomma.bindOpen (fun _ => .pure rfl) fun _ => .pure _) fun items => ?_
  · refine .peekSecond (fun y hy => ?_) (Lexeme.forall_isEnd ⟨rfl, rfl⟩ ⟨rfl, rfl⟩ fun _ => ⟨rfl, rfl⟩)
      (.of_follows (.pure rfl) rfl)
    cases y.startsItem with
    | true =>
        exact .of_followsAt (.advance (h.goes.bindOpen (fun e => .pure rfl) fun _ => .pure _)) hy
    | false => exact .of_followsAt (.of_follows (.pure rfl) rfl) hy
  · exact .peekSecond fun _ _ => .pure rfl
  · exact .atOp (by decide) (.peekSecond fun _ => .pure Option.none)
  · exact Stalls.bind hstalls fun _ => .pure _

/-- Expressions that are separated by commas. -/
theorem Starts.listOf (h : Starts true p q) : Starts true (listOf p) (listOf q) := by
  refine .line fun l => h.bindOpen (fun first => .atOp (.of_follows ?_ rfl) (.pure rfl) (.inl (by decide)))
    fun first => .atOp (by decide) (.pure _)
  exact (h.moreItems first).bindOpen (fun items => .pure rfl) fun _ => .pure _

/-- An expression list. -/
theorem Grammar.Starts.starExpressions (h : g.Starts g') :
    Script.Starts true (Script.starExpressions g) (Script.starExpressions g') :=
  h.starExpression.listOf

/-- A `yield` expression. -/
theorem Grammar.Starts.yieldExpression (h : g.Starts g') :
    Script.Starts true (Script.yieldExpression g) (Script.yieldExpression g') := by
  refine .line fun l => .expectWord (.takeWord ?_ (.peek (fun x hx => ?_) ?_ (.pure rfl)))
  · exact h.expression.goes.bindOpen (fun e => .pure rfl) fun _ => .pure _
  · cases x.startsItem with
    | true => exact .of_follows (h.starExpressions.goes.bindOpen (fun e => .pure rfl) fun _ => .pure _) hx
    | false => exact .of_follows (.pure rfl) hx
  · exact Lexeme.forall_isEnd ⟨rfl, rfl⟩ ⟨rfl, rfl⟩ fun _ => ⟨rfl, rfl⟩

/-! ## Targets and comprehensions -/

/-- An item on the left of `in`. -/
theorem Grammar.Starts.starTarget (h : g.Starts g') :
    Script.Starts true (Script.starTarget g) (Script.starTarget g') :=
  .line fun _ => .takeOp (by decide) (h.bitOr.goes.bind fun _ => .pure rfl)
    ⟨h.bitOr.bars, h.bitOr.goes.opened⟩

/-- Looking at a target takes nothing. -/
theorem goes_checkTarget {isOpen : Bool} (use : TargetUse) (e : Expr) :
    Goes isOpen (checkTarget use e) (checkTarget use e) := by
  unfold checkTarget
  cases invalidTarget? use 1000 e with
  | some bad => exact .fails fun _ => ⟨_, rfl⟩
  | none => exact .pure rfl

/-- Looking at a target leaves an expression where it is. -/
theorem Stalls.checkTarget (use : TargetUse) (e : Expr) : Stalls true (checkTarget use e) := by
  unfold Script.checkTarget
  cases invalidTarget? use 1000 e with
  | some bad => exact .fails fun _ _ => ⟨_, rfl⟩
  | none => exact .pure ()

/-- The targets of a loop. -/
theorem Grammar.Starts.loopTargets (h : g.Starts g') :
    Script.Starts true (Script.loopTargets g) (Script.loopTargets g') :=
  h.starTarget.listOf.bindOpen
    (fun e => (goes_checkTarget .assigned e).bindOpen (fun _ => .pure rfl) fun _ => .pure _)
    fun e => .bind (.checkTarget .assigned e) fun _ => .pure _

/-- Looking for the clauses of a comprehension takes nothing. -/
theorem goes_atClauses : Goes false atClauses atClauses := by
  refine .atWord (.of_follows (.pure rfl) rfl) (.atWord (.peekSecond (fun y hy => ?_)
    (Lexeme.forall_isEnd ⟨rfl, rfl⟩ ⟨rfl, rfl⟩ fun _ => ⟨rfl, rfl⟩) (.of_follows (.pure rfl) rfl)) (.pure rfl))
  split <;> exact .of_followsAt (.of_follows (.pure rfl) rfl) hy

/-- Clauses do not start before a stray expression. -/
theorem Stalls.atClauses {α : Type} {isOpen : Bool} {f : Bool → Parse α} (hf : Stalls isOpen (f false)) :
    Stalls isOpen (atClauses >>= f) := by
  refine .next (a := false) ?_ hf
  rintro s ⟨t, ts, rfl, ht⟩
  rw [Script.atClauses, bind_ok (atWord_cons t ts "for"), Lexeme.isWord_of_stray ht (by decide)]
  change (Parse.atWord "async" >>= _) _ = _
  rw [bind_ok (atWord_cons t ts "async"), Lexeme.isWord_of_stray ht (by decide)]
  rfl

/-- One clause of a comprehension. -/
theorem Grammar.Starts.clause (h : g.Starts g') : Takes false (Script.clause g) (Script.clause g') := by
  have hrest (l : Nat) (awaited : Bool) : Goes false
      (do
        let target ← Script.loopTargets g
        expectWord "in"
        let source ← g.disjunction
        let conditions ← loop (fun acc => do
          if ← takeWord "if" then
            let c ← g.disjunction
            return some (c :: acc)
          return Option.none) []
        return Clause.mk l awaited target source conditions.reverse)
      (do
        let target ← Script.loopTargets g'
        expectWord "in"
        let source ← g'.disjunction
        let conditions ← loop (fun acc => do
          if ← takeWord "if" then
            let c ← g'.disjunction
            return some (c :: acc)
          return Option.none) []
        return Clause.mk l awaited target source conditions.reverse) := by
    refine h.loopTargets.goes.bindOpen (fun target => .bindTaking .expectWord fun _ =>
      h.disjunction.goes.bind fun source => .bind (.loop (fun acc => ?_) []) fun _ => .pure rfl)
      fun target => .ends (.expectWord (by decide))
    exact .takeWord (h.disjunction.goes.bind fun c => .pure rfl) (.pure rfl)
  exact .line (fun l => .takeWord (.bindTaking .expectWord fun _ => hrest l true)
    (.bindTaking .expectWord fun _ => hrest l false)) fun l => .takeWord Bars.expectWord.bind

/-- The clauses of a comprehension. -/
theorem Grammar.Starts.clauses (h : g.Starts g') : Goes false (Script.clauses g) (Script.clauses g') := by
  refine .bind h.clause.goes fun first => .bind (.loop (fun acc => ?_) [first]) fun cs => .pure rfl
  refine goes_atClauses.bind fun b => ?_
  cases b with
  | true => exact h.clause.bindTaking fun c => .pure rfl
  | false => exact .pure rfl

/-- The clauses behind an element. -/
theorem Grammar.Starts.clausesFor (h : g.Starts g') (element : Expr) :
    Goes false (Script.clausesFor g element) (Script.clausesFor g' element) := by
  unfold Script.clausesFor
  cases element with
  | star l e => exact .fails (Fails.behind fun _ _ => ⟨_, rfl⟩)
  | _ => exact h.clauses

/-! ## Strings -/

/-- A list of tokens in which one ends an expression is aligned with itself. -/
theorem exists_aligned {ts : List Token} (h : ∃ t ∈ ts, t.lexeme.isEnd) :
    ∃ left, EndPair left left ∧ Aligned left left ts ts := by
  induction ts with
  | nil =>
      obtain ⟨t, ht, -⟩ := h
      exact absurd ht List.not_mem_nil
  | cons t ts ih =>
      by_cases ht : t.lexeme.isEnd
      · exact ⟨t :: ts, .same ht, .ends⟩
      · obtain ⟨u, hu, hend⟩ := h
        obtain rfl | hu := List.mem_cons.1 hu
        · exact absurd hend ht
        · obtain ⟨left, he, ha⟩ := ih ⟨u, hu, hend⟩
          exact ⟨left, he, .cons (Bool.eq_false_iff.2 ht) ha⟩

/-- What is left of a line whose tokens have been taken is the same on both sides. -/
theorem Aligned.eq_of_newline {left right s r : List Token} {t : Token} (ht : t.lexeme.isEnd)
    (h : Aligned left right (t :: s) r) : left = t :: s ∧ right = r := by
  cases h with
  | ends => exact ⟨rfl, rfl⟩
  | cons hx _ => exact absurd ht (by simp [hx])

/-- The last tokens of a lexer: the end of the text, where blocks end, or a fault. -/
inductive LastTokens : List Token → Prop
  | finish (line dedents : Nat) : LastTokens (blockTokens line dedents false ++ [⟨.finish, line, line, 0⟩])
  | fault (f : LexFault) (line depth : Nat) : LastTokens [⟨.fault f, line, line, depth⟩]

/-- A token that cannot be read is a fault. -/
theorem fault_of_tokenAt {s : LexState} {c : Char} {r : Text} {ts : List Token}
    (h : s.tokenAt c r = .last ts) : ∃ f line depth, ts = [⟨.fault f, line, line, depth⟩] := by
  have hfault (s : LexState) (c : LexCause) (l : Nat) :
      ∃ f line depth, s.fault c l = [⟨.fault f, line, line, depth⟩] := ⟨_, _, _, rfl⟩
  have hstring {m q t} (h : s.string m q t = .last ts) :
      ∃ f line depth, ts = [⟨.fault f, line, line, depth⟩] := by
    unfold LexState.string at h
    split at h <;> cases h
    exact hfault ..
  have hmark {m t} (h : s.mark m t = .last ts) : ∃ f line depth, ts = [⟨.fault f, line, line, depth⟩] := by
    unfold LexState.mark LexState.emit at h
    repeat' split at h
    all_goals cases h
    all_goals exact hfault ..
  unfold LexState.tokenAt LexState.emit at h
  dsimp only at h
  repeat' split at h
  all_goals first | exact hstring h | exact hmark h | cases h
  all_goals exact hfault ..

/-- A lexer ends with one of them. -/
theorem lastTokens_of_last {s : LexState} {ts : List Token} (h : s.step = .last ts) : LastTokens ts := by
  have hfault (s : LexState) (c : LexCause) (l : Nat) : LastTokens (s.fault c l) := .fault _ _ _
  have hfinish {s : LexState} (h : s.finish = .last ts) : LastTokens ts := by
    unfold LexState.finish at h
    split at h <;> cases h
    · exact .finish _ _
    · exact hfault ..
  have htoken {s : LexState} {c r} (h : s.tokenAt c r = .last ts) : LastTokens ts := by
    obtain ⟨f, line, depth, rfl⟩ := fault_of_tokenAt h
    exact .fault f line depth
  unfold LexState.step at h
  split at h
  · unfold LexState.startLine at h
    repeat' split at h
    all_goals first | exact hfinish h | cases h
    all_goals exact hfault ..
  · unfold LexState.token at h
    dsimp only at h
    repeat' split at h
    all_goals first | exact hfinish h | exact htoken h | cases h
    all_goals exact hfault ..

/-- The last tokens hold one at which no expression goes on. -/
theorem LastTokens.exists_isEnd {ts : List Token} (h : LastTokens ts) : ∃ t ∈ ts, t.lexeme.isEnd := by
  cases h with
  | finish line dedents => exact ⟨_, List.mem_append_right _ (List.mem_singleton_self _), rfl⟩
  | fault f line depth => exact ⟨_, List.mem_singleton_self _, rfl⟩

/-- The tokens of a lexer end. -/
theorem exists_isEnd_lexFrom (fuel : Nat) (s : LexState) : ∃ t ∈ lexFrom fuel s, t.lexeme.isEnd := by
  induction fuel generalizing s with
  | zero => exact ⟨_, List.mem_singleton_self _, rfl⟩
  | succ fuel ih =>
      rw [lexFrom]
      cases hstep : s.step with
      | last ts => exact (lastTokens_of_last hstep).exists_isEnd
      | more ts s' =>
          obtain ⟨t, ht, hend⟩ := ih s'
          exact ⟨t, List.mem_append_right _ ht, hend⟩

/-- The tokens of the value of a field end. -/
theorem exists_isEnd_lexInner (value : Text) (line : Nat) :
    ∃ t ∈ lexInner value line, t.lexeme.isEnd := by
  exact exists_isEnd_lexFrom _ _

/-- The value of a field is read alike by readers that nest deeper. -/
theorem Grammar.Starts.fieldValue (h : g.Starts g') {value : Text} {line : Nat} {e : Expr} {t : Token}
    {ts : List Token} (ht : t.lexeme = .newline)
    (hvalue : Script.starExpressions g (lexInner value line) = .ok (e, t :: ts)) :
    Script.starExpressions g' (lexInner value line) = .ok (e, t :: ts) := by
  obtain ⟨left, he, ha⟩ := exists_aligned (exists_isEnd_lexInner value line)
  obtain ⟨-, u, us, heq, hstray⟩ | ⟨r, hr, har, -⟩ := h.starExpressions.goes he _ _ ha _ _ hvalue
  · cases heq
    rw [ht] at hstray
    cases hstray
  · obtain ⟨rfl, rfl⟩ := har.eq_of_newline (by rw [ht]; rfl)
    exact hr

/-- The parts of a string with fields. -/
theorem Grammar.Starts.partsOf (h : g.Starts g') (line fuel : Nat) (pieces : List Piece) :
    Goes false (Script.partsOf g line fuel pieces) (Script.partsOf g' line fuel pieces) := by
  induction fuel generalizing pieces with
  | zero => exact .fails fun _ => ⟨_, rfl⟩
  | succ fuel ih =>
      cases pieces with
      | nil => exact .pure rfl
      | cons piece r =>
          cases piece with
          | text t => exact (ih r).bind fun rest => .pure rfl
          | field value breaks shown conversion format =>
              intro left right he s u ha
              unfold Script.partsOf
              dsimp only
              cases hvalue : Script.starExpressions g (lexInner value (line + breaks)) with
              | error f =>
                  refine .fails ?_
                  dsimp only
                  cases f with
                  | unexpected ts =>
                      cases ts with
                      | nil => exact ⟨_, rfl⟩
                      | cons t ts => dsimp only; split <;> exact ⟨_, rfl⟩
                  | reported l ts => exact ⟨_, rfl⟩
              | ok x =>
                  obtain ⟨e, _ | ⟨t, ts⟩⟩ := x
                  · exact .fails ⟨_, rfl⟩
                  · obtain ⟨lexeme, l, d, k⟩ := t
                    cases lexeme with
                    | newline =>
                        rw [h.fieldValue rfl hvalue]
                        refine Follows.bind (ih _) (fun spec => .bind (ih _) fun rest => ?_) he s u ha
                        cases shown <;> exact .pure rfl
                    | _ => exact .fails ⟨_, rfl⟩

/-- The string tokens at the front. -/
theorem goes_stringTokens : Goes false stringTokens stringTokens := by
  refine .bind (.loop (fun acc => .peek (fun x hx => ?_)
    (Lexeme.forall_isEnd ⟨rfl, rfl⟩ ⟨rfl, rfl⟩ fun _ => ⟨rfl, rfl⟩) (.pure rfl)) []) fun ts => .pure rfl
  cases x with
  | string s => exact .line fun l => .advance (.pure rfl)
  | _ => exact .of_follows (.pure rfl) hx

/-- A literal is read the same with both grammars. -/
theorem goes_literalText {α : Type} (raw bytes : Bool) (body : Text) (f : Text → α) (after after' : Nat) :
    Goes false
      (match literalText raw bytes body with
      | some x => pure (f x)
      | Option.none => report after)
      (match literalText raw bytes body with
      | some x => pure (f x)
      | Option.none => report after') := by
  cases literalText raw bytes body with
  | some x => exact .pure rfl
  | none => exact .fails fun _ => ⟨_, rfl⟩

/-- Neighbouring string literals. -/
theorem Grammar.Starts.strings (h : g.Starts g') (s : StringLit) :
    FollowsAt (.string s) false (fun _ => false) (Script.strings g) (Script.strings g') := by
  refine .line fun start => .of_follows (goes_stringTokens.bind fun toks => .lineAny fun after after' => ?_) rfl
  dsimp only
  cases toks.any (·.1.bytes) with
  | true =>
      cases toks.any (!·.1.bytes) with
      | true => exact .fails fun _ => ⟨_, rfl⟩
      | false =>
          simp only [Bool.and_false, Bool.false_eq_true, if_false, if_true]
          cases toks.find? fun t => t.1.body.any (0x80 ≤ ·.toNat) with
          | some t => exact .fails fun _ => ⟨_, rfl⟩
          | none =>
              refine Follows.bind (Follows.mapM (fun t => goes_literalText t.1.raw true t.1.body _ _ _) toks) fun _ => ?_
              exact .pure rfl
  | false =>
      cases toks.any (·.1.formatted) with
      | true =>
          refine Follows.bind (Follows.mapM (fun t => ?_) toks) fun _ => .pure rfl
          cases t.1.formatted with
          | true =>
              cases splitPieces t.1.raw (List.length t.1.body + 1) 0 0 t.1.body with
              | none => exact .fails fun _ => ⟨_, rfl⟩
              | some x =>
                  obtain ⟨ps, _ | ⟨c, r⟩⟩ := x
                  · exact h.partsOf t.2 _ ps
                  · exact .fails fun _ => ⟨_, rfl⟩
          | false => exact goes_literalText t.1.raw false t.1.body _ _ _
      | false =>
        refine Follows.bind (Follows.mapM (fun t => goes_literalText t.1.raw false t.1.body _ _ _) toks) fun _ => ?_
        exact .pure rfl

/-! ## Displays -/

/-- A list of elements in front of clauses is at fault. -/
theorem goes_rejectClauses (first : Expr) :
    Goes false (Script.rejectClauses g first) (Script.rejectClauses g' first) := by
  refine goes_atClauses.bind fun b => ?_
  cases b with
  | true => exact .fails (Fails.behind fun _ _ => ⟨_, rfl⟩)
  | false => exact .pure rfl

/-- There are no clauses before a stray expression. -/
theorem Stalls.rejectClauses (g : Grammar) (first : Expr) : Stalls true (Script.rejectClauses g first) :=
  .atClauses (.pure ())

/-- What round brackets hold. -/
theorem Grammar.Starts.parenthesised (h : g.Starts g') :
    Script.Starts false (Script.parenthesised g) (Script.parenthesised g') := by
  refine .line fun l => .expectOp (.takeOp (.pure rfl) (.atWord ?_ ?_) (.inr ?_))
  · exact .of_follows (h.yieldExpression.goes.bindOpen (fun e => .bindTaking .expectOp fun _ => .pure rfl)
      fun _ => .ends (.expectOp (by decide))) rfl
  · refine h.starNamed.goes.bindOpen (fun first => goes_atClauses.bind fun b => ?_)
      fun first => .atClauses (.atOp (by decide) (.ends (.expectOp (by decide))))
    cases b with
    | true => exact (h.clausesFor first).bind fun cs => .bindTaking .expectOp fun _ => .pure rfl
    | false =>
        refine .atOp (.of_follows ?_ rfl) (.bindTaking .expectOp fun _ => ?_) (.inl (by decide))
        · exact (h.starNamed.moreItems first).bindOpen (fun items => .bindTaking .expectOp fun _ => .pure rfl)
            fun _ => .ends (.expectOp (by decide))
        · cases first <;> first | exact .pure rfl | exact .fails fun _ => ⟨_, rfl⟩
  · exact .atWord h.starNamed.bars.bind

/-- What square brackets hold. -/
theorem Grammar.Starts.listDisplay (h : g.Starts g') :
    Script.Starts false (Script.listDisplay g) (Script.listDisplay g') := by
  have hends {f : Unit → Parse Expr} : Stalls false (Parse.expectOp "]" >>= f) := .ends (.expectOp (by decide))
  refine .line fun l => .expectOp (.takeOp (.pure rfl) ?_ (.inl (by decide)))
  refine h.starNamed.goes.bindOpen (fun first => goes_atClauses.bind fun b => ?_) fun first =>
    .atClauses (.bind (.moreItems _ first) fun items => .bind (.rejectClauses g first) fun _ => hends)
  cases b with
  | true => exact (h.clausesFor first).bind fun cs => .bindTaking .expectOp fun _ => .pure rfl
  | false =>
      exact (h.starNamed.moreItems first).bindOpen (fun items => (goes_rejectClauses first).bind fun _ =>
        .bindTaking .expectOp fun _ => .pure rfl) fun items => .bind (.rejectClauses g first) fun _ => hends

/-- An item of a mapping. -/
theorem Grammar.Starts.dictItem (h : g.Starts g') (isFirst : Bool) :
    Script.Starts true (Script.dictItem g isFirst) (Script.dictItem g' isFirst) := by
  refine .line fun start => .takeOp (by decide) (h.bitOr.goes.bind fun e => .pure rfl)
    (h.expression.bindOpen (fun k => .lineAny fun l l' => .atOp ?_ ?_ (.inl (by decide))) fun k => ?_)
  · refine .advance (.atOp (.of_follows (.atOp (.of_follows (.fails fun _ => ⟨_, rfl⟩) rfl) ?_ (.inl (by decide))) rfl)
       (.atOp ?_ ?_ (.inl (by decide))) (.inl (by decide)))
    · exact .fails fun _ => ⟨_, rfl⟩
    · exact .of_follows (.fails fun _ => ⟨_, rfl⟩) rfl
    · exact h.expression.goes.bindOpen (fun v => .pure rfl) fun _ => .pure _
  · cases isFirst <;> exact .fails fun _ => ⟨_, rfl⟩
  · refine .line fun l => .atOp (by decide) ?_
    cases isFirst <;> exact .fails fun _ _ => ⟨_, rfl⟩

/-- The items of a mapping behind the first one. -/
theorem Grammar.Starts.dictItems (h : g.Starts g') (l : Nat) (first : Option Expr × Expr) :
    Goes false (Script.dictItems g l first) (Script.dictItems g' l first) := by
  refine .bindOpen (.loopOpen (fun acc => .atOp (.advance ?_) (.pure rfl) (.inl (by decide)))
    (fun acc => .atOp (by decide) (.pure Option.none)) [first])
    (fun items => .bindTaking .expectOp fun _ => .pure rfl) fun items => .ends (.expectOp (by decide))
  refine .atOp (.of_follows (.pure rfl) rfl) ?_ (.inl (by decide))
  exact (h.dictItem false).goes.bindOpen (fun item => .pure rfl) fun _ => .pure _

/-- No items of a mapping follow before a stray expression. -/
theorem Stalls.dictItems {isOpen : Bool} (g : Grammar) (l : Nat) (first : Option Expr × Expr) :
    Stalls isOpen (Script.dictItems g l first) :=
  .bind (.loop (fun acc => .atOp (by decide) (.pure Option.none)) [first]) fun items =>
    .ends (.expectOp (by decide))

/-- The value that belongs to a first key, and the rest of the mapping. -/
theorem Grammar.Starts.mappingFrom (h : g.Starts g') (l colon : Nat) (first : Expr) : Goes false
    (do
      if (← atOp "\x7d") || (← atOp ",") then report colon
      let v ← g.expression
      match first with
      | .star sl _ => report sl
      | .bind bl _ _ _ => report bl
      | _ =>
        if ← atClauses then
          let cs ← Script.clauses g
          expectOp "\x7d"
          return .dictComprehension l first v cs
        Script.dictItems g l (some first, v))
    (do
      if (← atOp "\x7d") || (← atOp ",") then report colon
      let v ← g'.expression
      match first with
      | .star sl _ => report sl
      | .bind bl _ _ _ => report bl
      | _ =>
        if ← atClauses then
          let cs ← Script.clauses g'
          expectOp "\x7d"
          return .dictComprehension l first v cs
        Script.dictItems g' l (some first, v)) := by
  have hcomprehension (v : Expr) (b : Bool) : Goes false
      (if b = true then do
        let cs ← Script.clauses g
        expectOp "\x7d"
        pure (.dictComprehension l first v cs)
      else Script.dictItems g l (some first, v))
      (if b = true then do
        let cs ← Script.clauses g'
        expectOp "\x7d"
        pure (.dictComprehension l first v cs)
      else Script.dictItems g' l (some first, v)) := by
    cases b with
    | true => exact h.clauses.bind fun cs => .bindTaking .expectOp fun _ => .pure rfl
    | false => exact h.dictItems l _
  refine .atOp (.of_follows ?_ rfl) (.atOp (.of_follows (.fails fun _ => ⟨_, rfl⟩) rfl) ?_ (.inl (by decide)))
    (.inl (by decide))
  · exact .atOp (.of_follows (.fails fun _ => ⟨_, rfl⟩) rfl) (.fails fun _ => ⟨_, rfl⟩) (.inl (by decide))
  · refine h.expression.goes.bindOpen (fun v => ?_) fun v => ?_
    · cases first with
      | star | bind => exact .fails fun _ => ⟨_, rfl⟩
      | _ => exact goes_atClauses.bind fun b => hcomprehension v b
    · cases first with
      | star | bind => exact .fails fun _ _ => ⟨_, rfl⟩
      | _ => exact .atClauses (.dictItems g l _)

/-- What curly brackets hold. -/
theorem Grammar.Starts.braced (h : g.Starts g') :
    Script.Starts false (Script.braced g) (Script.braced g') := by
  have hends {f : Unit → Parse Expr} : Stalls false (Parse.expectOp "\x7d" >>= f) := .ends (.expectOp (by decide))
  refine .line fun l => .expectOp (.takeOp (.pure rfl) (.atOp (.line fun starLine => .of_follows ?_ rfl) ?_
    (.inl (by decide))) (.inl (by decide)))
  · refine (h.dictItem true).goes.bindOpen (fun first => goes_atClauses.bind fun b => ?_)
      fun first => .atClauses (.dictItems g l first)
    cases b with
    | true => exact .fails (Fails.behind fun _ _ => ⟨_, rfl⟩)
    | false => exact h.dictItems l first
  · refine h.starNamed.goes.bindOpen (fun first => .atOp (.line fun colon => .advance ?_)
      (goes_atClauses.bind fun b => ?_) (.inl (by decide))) fun first => .atOp (by decide) (.atClauses ?_)
    · exact h.mappingFrom l colon first
    · cases b with
      | true => exact (h.clausesFor first).bind fun cs => .bindTaking .expectOp fun _ => .pure rfl
      | false =>
          exact (h.starNamed.moreItems first).bindOpen (fun items => (goes_rejectClauses first).bind fun _ =>
            .bindTaking .expectOp fun _ => .pure rfl) fun items => .bind (.rejectClauses g first) fun _ => hends
    · exact .bind (.moreItems _ first) fun items => .bind (.rejectClauses g first) fun _ => hends

/-! ## Primaries -/

/-- The smallest expressions. -/
theorem Grammar.Starts.atom (h : g.Starts g') :
    Script.Starts false (Script.atom g) (Script.atom g') := by
  refine .line fun l => ⟨.peek (Lexeme.forall_isEnd (.fails fun _ => ⟨_, rfl⟩) (.fails fun _ => ⟨_, rfl⟩)
    fun _ => .fails fun _ => ⟨_, rfl⟩), .peekBars (fun x hx => ?_) (Lexeme.forall_isEnd
      (.fails fun _ => ⟨_, rfl⟩) (.fails fun _ => ⟨_, rfl⟩) fun _ => .fails fun _ => ⟨_, rfl⟩)⟩
  cases x with
  | name id => exact .advance (.pure rfl)
  | number n =>
      refine .advance ?_
      cases n <;> first | exact .pure rfl | exact .fails fun _ => ⟨_, rfl⟩
  | string s => exact h.strings s
  | keyword w =>
      split
      case h_2 => exact .advance (.pure rfl)
      case h_3 => exact .advance (.pure rfl)
      case h_4 => exact .advance (.pure rfl)
      case h_11 => exact .of_follows (.fails fun _ => ⟨_, rfl⟩) hx
      all_goals next heq => cases heq
  | op m =>
      split
      case h_7 => exact .of_follows h.parenthesised.goes hx
      case h_8 => exact .of_follows h.listDisplay.goes hx
      case h_9 => exact .of_follows h.braced.goes hx
      case h_10 => exact .advance (.pure rfl)
      case h_11 => exact .of_follows (.fails fun _ => ⟨_, rfl⟩) hx
      all_goals next heq => cases heq
  | _ => exact .of_follows (.fails fun _ => ⟨_, rfl⟩) hx

/-- A positional argument behind a named one is at fault. -/
theorem fails_rejectPositional {α : Type} (g : Grammar) (s : List Token) :
    Fails (Script.rejectPositional g : Parse α) s :=
  Fails.behind (fun _ s => Fails.behind (fun _ _ => ⟨_, rfl⟩) s) s

/-- An argument without a name. -/
theorem Grammar.Starts.plainArgument (h : g.Starts g') (l : Nat) (s : ArgState) : Script.Starts true
    (do
      let e ← g.expression
      if ← atOp "=" then report l
      if ← atOp ":=" then report l
      if ← atClauses then
        let cs ← Script.clauses g
        if s.args.isEmpty && (← atOp ")") then
          return { s with args := [.positional (.comprehension s.start .generator e cs)] }
        if s.args.isEmpty && !(← atOp ",") then unexpected
        report l
      if s.named || s.unpacked then rejectPositional g
      return { s with args := .positional e :: s.args })
    (do
      let e ← g'.expression
      if ← atOp "=" then report l
      if ← atOp ":=" then report l
      if ← atClauses then
        let cs ← Script.clauses g'
        if s.args.isEmpty && (← atOp ")") then
          return { s with args := [.positional (.comprehension s.start .generator e cs)] }
        if s.args.isEmpty && !(← atOp ",") then unexpected
        report l
      if s.named || s.unpacked then rejectPositional g'
      return { s with args := .positional e :: s.args }) := by
  refine h.expression.bindOpen (fun e => .atOp (.of_follows (.fails fun _ => ⟨_, rfl⟩) rfl) (.atOp
    (.of_follows (.fails fun _ => ⟨_, rfl⟩) rfl) (goes_atClauses.bind fun b => ?_) (.inl (by decide)))
    (.inl (by decide))) fun e => .atOp (by decide) (.atOp (by decide) (.atClauses ?_))
  · cases b with
    | true =>
        refine h.clauses.bind fun cs => ?_
        cases s.args.isEmpty with
        | true =>
            refine .atOp (.of_follows (.pure rfl) rfl) (.fails fun s => ?_) (.inr (.fails fun s => ?_))
            all_goals exact Fails.behind (fun d _ => by cases d <;> exact ⟨_, rfl⟩) s
        | false =>
            refine .fails fun s => Fails.behind (fun c s => ?_) s
            cases c <;> exact Fails.behind (fun d _ => by cases d <;> exact ⟨_, rfl⟩) s
    | false =>
        cases s.named || s.unpacked with
        | true => exact .fails fun s => (fails_rejectPositional g s).bind _
        | false => exact .pure rfl
  · cases s.named || s.unpacked with
    | true => exact .fails fun s _ => (fails_rejectPositional g s).bind _
    | false => exact .pure _

/-- One argument of a call. -/
theorem Grammar.Starts.argument (h : g.Starts g') (s : ArgState) :
    Script.Starts true (Script.argument g s) (Script.argument g' s) := by
  have hbars (l : Nat) : Bars (Parse.peekSecond >>= fun _ => _) := .peekSecond fun _ => (h.plainArgument l s).bars
  have hplain (l : Nat) {x y : Lexeme} (hx : x.isEnd = false) (hy : y.isEnd = false) :=
    FollowsAtTwo.of_followsAt (.of_follows (h.plainArgument l s).goes hx) hy
  refine .line fun l => ⟨.peek (Lexeme.forall_isEnd (hbars l) (hbars l) fun _ => hbars l), .peekBars (fun x hx => ?_)
    (Lexeme.forall_isEnd (hbars l) (hbars l) fun _ => hbars l)⟩
  cases x with
  | name id =>
      refine .peekSecond (fun y hy => ?_) (Lexeme.forall_isEnd ⟨rfl, rfl⟩ ⟨rfl, rfl⟩ fun _ => ⟨rfl, rfl⟩)
        (.of_follows (h.plainArgument l s).goes hx)
      cases y with
      | op m =>
          split
          case h_3 =>
            refine .advance (.advance (h.expression.goes.bindOpen (fun e => goes_atClauses.bind fun b => ?_)
              fun e => .atClauses (.pure _)))
            cases b with
            | true => exact .fails fun _ => ⟨_, rfl⟩
            | false => exact .pure rfl
          case h_4 =>
            refine .advance (.advance (h.expression.goes.bindOpen (fun e => ?_) fun e => ?_))
            all_goals cases s.named || s.unpacked
            · exact .pure rfl
            · exact .fails fun s => (fails_rejectPositional g s).bind _
            · exact .pure _
            · exact .fails fun s _ => (fails_rejectPositional g s).bind _
          case h_5 => exact hplain l hx hy
          all_goals next heq => cases heq
      | _ => exact hplain l hx hy
  | op m =>
      refine .peekSecondAny fun y y' => ?_
      by_cases hstar : m = "*"
      · subst hstar
        cases s.unpacked with
        | true => exact .of_follows (.fails fun _ => ⟨_, rfl⟩) hx
        | false => exact .advance (h.expression.goes.bindOpen (fun e => .pure rfl) fun _ => .pure _)
      · by_cases hdouble : m = "**"
        · subst hdouble
          exact .advance (h.expression.goes.bindOpen (fun e => .pure rfl) fun _ => .pure _)
        · refine (congrArg₂ (FollowsAt _ true _) ?_ ?_).mpr (.of_follows (h.plainArgument l s).goes hx)
          all_goals
            split
            case h_1 heq => exact absurd (Lexeme.op.inj heq) hstar
            case h_2 heq => exact absurd (Lexeme.op.inj heq) hdouble
            case h_5 => rfl
            all_goals next heq => cases heq
  | _ => exact .of_follows (.peekSecond fun y y' => (h.plainArgument l s).goes) hx

/-- The arguments of a call. -/
theorem Grammar.Starts.arguments (h : g.Starts g') (start : Nat) :
    Goes false (Script.arguments g start) (Script.arguments g' start) := by
  refine .takeOp (.pure rfl) ((h.argument _).goes.bindOpen (fun first => ?_) fun first => ?_)
    (.inr (h.argument _).bars.bind)
  · refine .bindOpen (.loopOpen (fun s => .takeOp ?_ (.pure rfl) (.inl (by decide)))
      (fun s => .takeOp (by decide) (.pure Option.none)) first)
      (fun s => .bindTaking .expectOp fun _ => .pure rfl) fun s => .ends (.expectOp (by decide))
    refine .atOp (.of_follows (.pure rfl) rfl) ?_ (.inr (h.argument s).bars.bind)
    exact (h.argument s).goes.bindOpen (fun s => .pure rfl) fun _ => .pure _
  · exact .bind (.loop (fun s => .takeOp (by decide) (.pure Option.none)) first) fun s =>
      .ends (.expectOp (by decide))

/-- An index or a slice. -/
theorem Grammar.Starts.sliceItem (h : g.Starts g') :
    Script.Starts true (Script.sliceItem g) (Script.sliceItem g') := by
  have hbound : Goes true
      (do
        if (← peek).startsExpression then
          let e ← g.expression
          return some e
        return Option.none)
      (do
        if (← peek).startsExpression then
          let e ← g'.expression
          return some e
        return Option.none) := by
    refine .peek (fun x hx => ?_) (Lexeme.forall_isEnd ⟨rfl, rfl⟩ ⟨rfl, rfl⟩ fun _ => ⟨rfl, rfl⟩) (.pure rfl)
    cases x.startsExpression with
    | true => exact .of_follows (h.expression.goes.bindOpen (fun e => .pure rfl) fun _ => .pure _) hx
    | false => exact .of_follows (.pure rfl) hx
  have htail (l : Nat) (low : Option Expr) : Goes true
      (do
        let bound : Parse (Option Expr) := do
          if (← peek).startsExpression then
            let e ← g.expression
            return some e
          return Option.none
        expectOp ":"
        let high ← bound
        if ← takeOp ":" then
          let step ← bound
          return Expr.slice l low high step
        return Expr.slice l low high Option.none)
      (do
        let bound : Parse (Option Expr) := do
          if (← peek).startsExpression then
            let e ← g'.expression
            return some e
          return Option.none
        expectOp ":"
        let high ← bound
        if ← takeOp ":" then
          let step ← bound
          return Expr.slice l low high step
        return Expr.slice l low high Option.none) := by
    refine .bindTaking .expectOp fun _ => hbound.bindOpen (fun high => .takeOp ?_ (.pure rfl)
      (.inl (by decide))) fun high => .takeOp (by decide) (.pure _)
    exact hbound.bindOpen (fun step => .pure rfl) fun _ => .pure _
  refine .line fun l => ⟨.atOp (.takeOp h.namedExpression.bars.bind), .atOp (.of_follows (htail l _) rfl)
    (.takeOp (h.bitOr.goes.bind fun e => .pure rfl) ?_ (.inl (by decide))) (.inl (by decide))⟩
  refine h.namedExpression.goes.bindOpen (fun e => .atOp (.of_follows ?_ rfl) (.pure rfl) (.inl (by decide)))
    fun e => .atOp (by decide) (.pure e)
  cases e with
  | bind => exact .fails fun _ => ⟨_, rfl⟩
  | _ => exact htail l _

/-- What the square brackets of a subscript hold. -/
theorem Grammar.Starts.subscriptIndex (h : g.Starts g') :
    Script.Starts true (Script.subscriptIndex g) (Script.subscriptIndex g') := by
  have hitems (l : Nat) (first : Expr) : Goes true
      (do
        let items ← loop (fun acc => do
          if ← takeOp "," then
            if ← atOp "]" then return Option.none
            let e ← Script.sliceItem g
            return some (e :: acc)
          return Option.none) [first]
        return Expr.display l .tuple items.reverse)
      (do
        let items ← loop (fun acc => do
          if ← takeOp "," then
            if ← atOp "]" then return Option.none
            let e ← Script.sliceItem g'
            return some (e :: acc)
          return Option.none) [first]
        return Expr.display l .tuple items.reverse) := by
    refine .bindOpen (.loopOpen (fun acc => .takeOp ?_ (.pure rfl) (.inl (by decide)))
      (fun acc => .takeOp (by decide) (.pure Option.none)) [first]) (fun items => .pure rfl) fun _ => .pure _
    refine .atOp (.of_follows (.pure rfl) rfl) ?_ (.inl (by decide))
    exact h.sliceItem.goes.bindOpen (fun e => .pure rfl) fun _ => .pure _
  have hstalls (l : Nat) (first : Expr) : Stalls true (do
      let items ← loop (fun acc => do
        if ← takeOp "," then
          if ← atOp "]" then return Option.none
          let e ← Script.sliceItem g
          return some (e :: acc)
        return Option.none) [first]
      return Expr.display l .tuple items.reverse) :=
    .bind (.loop (fun acc => .takeOp (by decide) (.pure Option.none)) [first]) fun _ => .pure _
  refine .line fun l => h.sliceItem.bindOpen (fun first => ?_) fun first => ?_
  · cases first with
    | star => exact .atOp (.of_follows (hitems l _) rfl) (hitems l _) (.inl (by decide))
    | _ => exact .atOp (.of_follows (hitems l _) rfl) (.pure rfl) (.inl (by decide))
  · cases first with
    | star => exact .atOp (by decide) (hstalls l _)
    | _ => exact .atOp (by decide) (.pure _)

/-- A trailer of a primary. -/
theorem Grammar.Starts.trailer (h : g.Starts g') (l : Nat) (e : Expr) :
    Steps false (Script.trailer g l e) (Script.trailer g' l e) := by
  refine .peek (fun x hx => ?_) (Lexeme.forall_isEnd ⟨rfl, rfl⟩ ⟨rfl, rfl⟩ fun _ => ⟨rfl, rfl⟩) (.pure rfl)
  cases x with
  | op m =>
      split
      case h_1 =>
        refine .advance (.line (fun idLine => ?_) fun idLine => Bars.name.bind)
        exact .bindTaking .name fun id => .pure rfl
      case h_2 => exact .line fun start => .advance ((h.arguments start).bind fun args => .pure rfl)
      case h_3 =>
        refine .advance (h.subscriptIndex.goes.bindOpen (fun i => ?_) fun _ => .ends (.expectOp (by decide)))
        exact .bindTaking .expectOp fun _ => .pure rfl
      case h_4 => exact .of_follows (.pure rfl) hx
  | _ => exact .of_follows (.pure rfl) hx

/-- An atom with its trailers. -/
theorem Grammar.Starts.primary (h : g.Starts g') :
    Script.Starts false (Script.primary g) (Script.primary g') :=
  .line fun l => h.atom.bind fun e => .loop (h.trailer l) e

/-- A primary that may be awaited. -/
theorem Grammar.Starts.awaited (h : g.Starts g') :
    Script.Starts false (Script.awaited g) (Script.awaited g') :=
  .line fun _ => .takeWord (h.primary.goes.bind fun _ => .pure rfl) h.primary

/-- A signed power. -/
theorem Grammar.Starts.factorOf (h : g.Starts g') :
    Script.Starts false (Script.factor g) (Script.factor g') := by
  have hpower (l : Nat) : Script.Starts false
      (do
        let base ← Script.awaited g
        if ← takeOp "**" then
          let e ← g.factor
          return .binary l .pow base e
        return base)
      (do
        let base ← Script.awaited g'
        if ← takeOp "**" then
          let e ← g'.factor
          return .binary l .pow base e
        return base) :=
    h.awaited.bind fun base => .takeOp (h.factor.goes.bind fun e => .pure rfl) (.pure rfl) (.inl (by decide))
  refine .line fun l => ⟨.peek (Lexeme.forall_isEnd (hpower l).bars (hpower l).bars fun _ => (hpower l).bars),
    .peekBars (fun x hx => ?_) (Lexeme.forall_isEnd (hpower l).bars (hpower l).bars fun _ => (hpower l).bars)⟩
  cases x with
  | op m =>
      split
      case h_1 => exact .advance (h.factor.goes.bind fun e => .pure rfl)
      case h_2 => exact .advance (h.factor.goes.bind fun e => .pure rfl)
      case h_3 => exact .advance (h.factor.goes.bind fun e => .pure rfl)
      case h_4 => exact .of_follows (hpower l).goes hx
  | _ => exact .of_follows (hpower l).goes hx

/-- Readers go along with readers that nest at least as deep. -/
theorem Grammar.starts_level {n k : Nat} (h : n ≤ k) :
    (Grammar.level n).Starts (Grammar.level k) := by
  induction n generalizing k with
  | zero =>
      have hfails {α : Type} {isOpen : Bool} {p : Parse α} : Script.Starts isOpen Parse.unexpected p :=
        ⟨.fails fun _ => ⟨_, rfl⟩, .fails fun _ => ⟨_, rfl⟩⟩
      exact ⟨hfails, hfails, hfails, hfails⟩
  | succ n ih =>
      obtain ⟨k, rfl⟩ := Nat.exists_eq_add_of_le' (Nat.le_trans (Nat.le_add_left 1 n) h)
      have h := ih (Nat.le_of_succ_le_succ h)
      exact ⟨h.expressionOf, h.disjunctionOf, h.bitOrOf, h.factorOf⟩

end

end Stencil.Script
