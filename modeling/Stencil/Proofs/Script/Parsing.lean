import Stencil.Script.Parser.Statement

/-!
# How the readers take simple expressions

The readers of the grammar form a chain by falling precedence. Where a primary is followed by a token
that continues no expression, every reader of the chain gives that primary (`expression_of_primary`).
Loops of readers are followed step by step with `Loops`.
-/

namespace Stencil.Script

open Parse

/-! ## Taking tokens -/

/-- Whether a token is a mark. -/
def Lexeme.isOp (x : Lexeme) (m : String) : Bool :=
  match x with
  | .op m' => m == m'
  | _ => false

/-- Whether a token is a keyword. -/
def Lexeme.isWord (x : Lexeme) (w : String) : Bool :=
  match x with
  | .keyword w' => w == w'
  | _ => false

namespace Parse

variable {α β : Type}

/-- A reader that gives something is followed by the next one. -/
theorem bind_ok {p : Parse α} {f : α → Parse β} {s r : List Token} {a : α}
    (h : p s = .ok (a, r)) : (p >>= f) s = f a r := by
  change (p s).bind _ = _
  rw [h]
  rfl

/-- Two readers in a row. -/
@[simp] theorem bind_apply (p : Parse α) (f : α → Parse β) (ts : List Token) :
    (p >>= f) ts = (p ts).bind fun x => f x.1 x.2 := rfl

/-- A reader that takes nothing. -/
@[simp] theorem pure_apply (a : α) (ts : List Token) : (pure a : Parse α) ts = .ok (a, ts) := rfl

variable (t : Token) (ts : List Token)

/-- What the next token is. -/
@[simp] theorem peek_cons : peek (t :: ts) = .ok (t.lexeme, t :: ts) := rfl

/-- What the token behind the next one is. -/
@[simp] theorem peekSecond_cons (u : Token) :
    peekSecond (t :: u :: ts) = .ok (u.lexeme, t :: u :: ts) := rfl

/-- The line of the next token. -/
@[simp] theorem line_cons : line (t :: ts) = .ok (t.line, t :: ts) := rfl

/-- Taking the next token. -/
@[simp] theorem advance_cons : advance (t :: ts) = .ok ((), ts) := rfl

/-- Looking for a mark. -/
@[simp] theorem atOp_cons (m : String) :
    atOp m (t :: ts) = .ok (t.lexeme.isOp m, t :: ts) := by
  obtain ⟨x, l, l', d⟩ := t
  cases x <;> rfl

/-- Looking for a keyword. -/
@[simp] theorem atWord_cons (w : String) :
    atWord w (t :: ts) = .ok (t.lexeme.isWord w, t :: ts) := by
  obtain ⟨x, l, l', d⟩ := t
  cases x <;> rfl

/-- Taking a mark if it is next. -/
@[simp] theorem takeOp_cons (m : String) :
    takeOp m (t :: ts) = .ok (t.lexeme.isOp m, if t.lexeme.isOp m then ts else t :: ts) := by
  simp only [takeOp, bind_apply, atOp_cons, Except.bind]
  cases t.lexeme.isOp m <;> rfl

/-- Taking a keyword if it is next. -/
@[simp] theorem takeWord_cons (w : String) :
    takeWord w (t :: ts) = .ok (t.lexeme.isWord w, if t.lexeme.isWord w then ts else t :: ts) := by
  simp only [takeWord, bind_apply, atWord_cons, Except.bind]
  cases t.lexeme.isWord w <;> rfl

/-- Taking a mark that is next. -/
@[simp] theorem expectOp_cons {m : String} (h : t.lexeme.isOp m) :
    expectOp m (t :: ts) = .ok ((), ts) := by
  simp only [expectOp, bind_apply, takeOp_cons, h, Except.bind]
  rfl

/-- Taking a keyword that is next. -/
@[simp] theorem expectWord_cons {w : String} (h : t.lexeme.isWord w) :
    expectWord w (t :: ts) = .ok ((), ts) := by
  simp only [expectWord, bind_apply, takeWord_cons, h, Except.bind]
  rfl

end Parse

/-! ## Loops -/

/-- A loop from a state on gives a result, whatever the tokens that bound its steps. -/
def Loops {α : Type} (step : α → Parse (Option α)) (a : α) (ts : List Token)
    (r : Except ParseFailure (α × List Token)) : Prop :=
  ∀ fuel : List Token, ts.length ≤ fuel.length → iterate step fuel a ts = r

namespace Loops

variable {α : Type} {step : α → Parse (Option α)} {a b : α} {ts s : List Token}
  {r : Except ParseFailure (α × List Token)}

/-- A step that gives nothing ends the loop. -/
theorem done (h : step a ts = .ok (none, ts)) : Loops step a ts (.ok (a, ts)) := by
  intro fuel hfuel
  cases fuel with
  | nil => rfl
  | cons t fuel =>
      rw [iterate, bind_ok h]
      rfl

/-- A step that gives something takes a token, and the loop goes on. -/
theorem more (h : step a ts = .ok (some b, s)) (hless : s.length < ts.length)
    (hrest : Loops step b s r) : Loops step a ts r := by
  intro fuel hfuel
  cases fuel with
  | nil => exact absurd hfuel (by simp only [List.length_nil]; omega)
  | cons t fuel =>
      rw [iterate, bind_ok h]
      exact hrest fuel (by simp only [List.length_cons] at hfuel; omega)

/-- A loop whose steps have been followed gives the result. -/
theorem loop_eq (h : Loops step a ts r) : loop step a ts = r :=
  h ts (Nat.le_refl _)

end Loops

/-! ## The chain of readers -/

/-- Whether no expression goes on with a token. -/
def Lexeme.endsExpression : Lexeme → Bool
  | .op m => [")", ":", "=", ":="].contains m
  | .newline => true
  | _ => false

/-- Whether no operand of a comparison goes on with a token. -/
def Lexeme.endsOperand (x : Lexeme) : Bool :=
  x.endsExpression || x.isWord "in"

/-- Whether a primary without brackets starts with a token. -/
def Lexeme.startsPrimary : Lexeme → Bool
  | .name _ | .string _ => true
  | _ => false

/-- The tokens with which no operand goes on. -/
theorem endsOperand_cases {x : Lexeme} (h : x.endsOperand) :
    x = .op ")" ∨ x = .op ":" ∨ x = .op "=" ∨ x = .op ":=" ∨ x = .newline ∨ x = .keyword "in" := by
  cases x <;> simp_all [Lexeme.endsOperand, Lexeme.endsExpression, Lexeme.isWord]

/-- The tokens with which no expression goes on. -/
theorem endsExpression_cases {x : Lexeme} (h : x.endsExpression) :
    x = .op ")" ∨ x = .op ":" ∨ x = .op "=" ∨ x = .op ":=" ∨ x = .newline := by
  cases x <;> simp_all [Lexeme.endsExpression]

/-- A token with which no expression goes on ends an operand. -/
theorem endsOperand_of_endsExpression {x : Lexeme} (h : x.endsExpression) : x.endsOperand := by
  rw [Lexeme.endsOperand, h, Bool.true_or]

section

variable {t u : Token} {ts rest : List Token} {e : Expr}

/-- Operators are looked for behind an operand. -/
theorem leftAssoc_of_operand (ops : List (String × BinaryOp)) {operand : Parse Expr}
    (h : operand (t :: ts) = .ok (e, u :: rest)) (hu : u.lexeme.endsOperand)
    (hops : ∀ m ∈ [")", ":", "=", ":="], ops.lookup m = none) :
    leftAssoc ops operand (t :: ts) = .ok (e, u :: rest) := by
  rw [leftAssoc, bind_ok (line_cons t ts), bind_ok h]
  refine (Loops.done ?_).loop_eq
  rcases endsOperand_cases hu with hu | hu | hu | hu | hu | hu <;> simp [hu, Except.bind, hops]

/-- A primary that no trailer follows is a power without signs. -/
theorem factor_of_primary {g : Grammar} (h : primary g (t :: ts) = .ok (e, u :: rest))
    (ht : t.lexeme.startsPrimary) (hu : u.lexeme.endsOperand) :
    factor g (t :: ts) = .ok (e, u :: rest) := by
  have hawaited : awaited g (t :: ts) = .ok (e, u :: rest) := by
    cases hx : t.lexeme <;>
      simp_all [awaited, Lexeme.startsPrimary, Lexeme.isWord, Except.bind]
  have hpower : u.lexeme.isOp "**" = false := by
    rcases endsOperand_cases hu with hu | hu | hu | hu | hu | hu <;> rw [hu] <;> rfl
  cases hx : t.lexeme <;>
    simp_all [factor, Lexeme.startsPrimary, Except.bind]

variable {n : Nat}

/-- A primary that nothing continues is an operand of a comparison. -/
theorem bitOr_of_primary (h : primary (.level n) (t :: ts) = .ok (e, u :: rest))
    (ht : t.lexeme.startsPrimary) (hu : u.lexeme.endsOperand) :
    bitOr (.level (n + 1)) (t :: ts) = .ok (e, u :: rest) := by
  have hfactor : (Grammar.level (n + 1)).factor (t :: ts) = .ok (e, u :: rest) :=
    factor_of_primary h ht hu
  have hterm := leftAssoc_of_operand
    [("*", .mul), ("/", .div), ("//", .floorDiv), ("%", .mod), ("@", .matMul)] hfactor hu (by decide)
  have hsum := leftAssoc_of_operand [("+", .add), ("-", .sub)] hterm hu (by decide)
  have hshift := leftAssoc_of_operand [("<<", .shiftLeft), (">>", .shiftRight)] hsum hu (by decide)
  have hand := leftAssoc_of_operand [("&", .bitAnd)] hshift hu (by decide)
  have hxor := leftAssoc_of_operand [("^", .bitXor)] hand hu (by decide)
  exact leftAssoc_of_operand [("|", .bitOr)] hxor hu (by decide)

/-- A primary that nothing continues is a comparison behind no negation. -/
theorem inversion_of_primary (h : primary (.level n) (t :: ts) = .ok (e, u :: rest))
    (ht : t.lexeme.startsPrimary) (hu : u.lexeme.endsExpression) :
    inversion (.level (n + 1)) (t :: ts) = .ok (e, u :: rest) := by
  have hnegations : negations (t :: ts) = .ok ([], t :: ts) := by
    refine (Loops.done ?_).loop_eq
    cases hx : t.lexeme <;> simp_all [Lexeme.startsPrimary, Lexeme.isWord, Except.bind]
  have hoperand := bitOr_of_primary h ht (endsOperand_of_endsExpression hu)
  have hcomparison : comparison (.level (n + 1)) (t :: ts) = .ok (e, u :: rest) := by
    rw [comparison, bind_ok (line_cons t ts), bind_ok hoperand, bind_ok (Loops.done ?_).loop_eq]
    · rfl
    · rcases endsExpression_cases hu with hu | hu | hu | hu | hu <;>
        simp [compareOp?, hu, Except.bind]
  rw [inversion, bind_ok hnegations, bind_ok hcomparison]
  rfl

/-- Operands that are joined by a word stand alone where the word does not follow. -/
theorem chain_of_operand {word : String} {conjunction : Bool} {operand : Parse Expr}
    (h : operand (t :: ts) = .ok (e, u :: rest)) (hu : u.lexeme.endsExpression) :
    chain word conjunction operand (t :: ts) = .ok (e, u :: rest) := by
  rw [chain, bind_ok (line_cons t ts), bind_ok h, bind_ok (Loops.done ?_).loop_eq]
  · rfl
  · rcases endsExpression_cases hu with hu | hu | hu | hu | hu <;> simp [hu, Lexeme.isWord, Except.bind]

/-- Looking for words that make an expression ambiguous takes nothing. -/
theorem exists_startsAmbiguously (t : Token) (ts : List Token) :
    ∃ a, startsAmbiguously (t :: ts) = .ok (a, t :: ts) := by
  rw [startsAmbiguously, bind_ok (peek_cons t ts)]
  cases t.lexeme with
  | name id =>
      dsimp only
      split
      · exact ⟨true, rfl⟩
      · cases ts with
        | nil => exact ⟨false, rfl⟩
        | cons u ts =>
            rw [bind_ok (peekSecond_cons t ts u)]
            cases u.lexeme <;> exact ⟨_, rfl⟩
  | _ => exact ⟨false, rfl⟩

/-- A primary that nothing continues is an expression. -/
theorem expression_of_primary (h : primary (.level n) (t :: ts) = .ok (e, u :: rest))
    (ht : t.lexeme.startsPrimary) (hu : u.lexeme.endsExpression) :
    (Grammar.level (n + 2)).expression (t :: ts) = .ok (e, u :: rest) := by
  have hdisjunction : disjunction (.level (n + 1)) (t :: ts) = .ok (e, u :: rest) :=
    chain_of_operand (chain_of_operand (inversion_of_primary h ht hu) hu) hu
  have hneighbour : ∀ ambiguous,
      rejectNeighbour (.level (n + 1)) ambiguous e (u :: rest) = .ok ((), u :: rest) := by
    intro ambiguous
    rcases endsExpression_cases hu with hu | hu | hu | hu | hu <;>
      simp [rejectNeighbour, hu, Lexeme.startsStrayExpression, Lexeme.startsExpression, Except.bind]
  obtain ⟨a, ha⟩ := exists_startsAmbiguously t ts
  have hlambda : t.lexeme.isWord "lambda" = false := by
    cases hx : t.lexeme <;> simp_all [Lexeme.startsPrimary, Lexeme.isWord]
  have hif : u.lexeme.isWord "if" = false := by
    rcases endsExpression_cases hu with hu | hu | hu | hu | hu <;> rw [hu] <;> rfl
  change expression (.level (n + 1)) (t :: ts) = _
  rw [expression, bind_ok (atWord_cons t ts "lambda"), hlambda, if_neg (by simp),
    bind_ok (line_cons t ts), bind_ok ha, bind_ok hdisjunction, bind_ok (takeWord_cons u rest "if"),
    hif, if_neg (by simp), if_neg (by simp)]
  exact bind_ok (hneighbour a)

/-! ## Primaries -/

/-- No trailer follows where an operand ends. -/
theorem trailer_none {g : Grammar} {l : Nat} (hu : u.lexeme.endsOperand) :
    trailer g l e (u :: rest) = .ok (none, u :: rest) := by
  rcases endsOperand_cases hu with hu | hu | hu | hu | hu | hu <;> simp [trailer, hu, Except.bind]

/-- A name that nothing continues. -/
theorem primary_name {g : Grammar} {id : String} {l l' d : Nat} (hu : u.lexeme.endsOperand) :
    primary g (⟨.name id, l, l', d⟩ :: u :: rest) = .ok (.name l id, u :: rest) := by
  rw [primary, bind_ok (line_cons _ _), bind_ok (a := Expr.name l id) (r := u :: rest) (by rfl)]
  exact (Loops.done (trailer_none hu)).loop_eq

/-- A plain string literal that nothing continues. -/
theorem primary_string {g : Grammar} {body text : Text} {l l' d : Nat}
    (hbody : literalText false false body = some text) (hu : u.lexeme.endsOperand) :
    primary g (⟨.string ⟨false, false, false, body⟩, l, l', d⟩ :: u :: rest) =
      .ok (.constant l (.str (String.ofList text)), u :: rest) := by
  have htokens : stringTokens (⟨.string ⟨false, false, false, body⟩, l, l', d⟩ :: u :: rest) =
      .ok ([(⟨false, false, false, body⟩, l)], u :: rest) := by
    rw [stringTokens, bind_ok (Loops.more (b := [(⟨false, false, false, body⟩, l)])
      (s := u :: rest) rfl (by simp) (Loops.done ?_)).loop_eq]
    · rfl
    · rcases endsOperand_cases hu with hu | hu | hu | hu | hu | hu <;> simp [hu, Except.bind]
  have hstrings : strings g (⟨.string ⟨false, false, false, body⟩, l, l', d⟩ :: u :: rest) =
      .ok (.constant l (.str (String.ofList text)), u :: rest) := by
    rw [strings, bind_ok (line_cons _ _), bind_ok htokens, bind_ok (line_cons _ _)]
    simp [hbody, Except.bind]
  have hatom : atom g (⟨.string ⟨false, false, false, body⟩, l, l', d⟩ :: u :: rest) =
      .ok (.constant l (.str (String.ofList text)), u :: rest) := hstrings
  rw [primary, bind_ok (line_cons _ _), bind_ok hatom]
  exact (Loops.done (trailer_none hu)).loop_eq

/-- An argument without a name. -/
theorem argument_positional {g : Grammar} {t' : Token} {start l l' d : Nat}
    (h : g.expression (t :: t' :: ts) = .ok (e, ⟨.op ")", l, l', d⟩ :: rest))
    (ht : t.lexeme.startsPrimary)
    (hbracket : t'.lexeme = .op "(" ∨ t'.lexeme = .op ")") :
    argument g ⟨[], false, false, start⟩ (t :: t' :: ts) =
      .ok (⟨[.positional e], false, false, start⟩, ⟨.op ")", l, l', d⟩ :: rest) := by
  rw [argument, bind_ok (line_cons _ _), bind_ok (peek_cons _ _), bind_ok (peekSecond_cons _ _ _)]
  cases hx : t.lexeme with
  | name id => rcases hbracket with hy | hy <;> (rw [hy]; exact bind_ok h)
  | string s => rcases hbracket with hy | hy <;> (rw [hy]; exact bind_ok h)
  | _ => exact absurd ht (by rw [hx]; exact Bool.false_ne_true)

/-- The only argument of a call, and the bracket behind it. -/
theorem arguments_one {g : Grammar} {t' : Token} {start l l' d : Nat}
    (h : g.expression (t :: t' :: ts) = .ok (e, ⟨.op ")", l, l', d⟩ :: rest))
    (ht : t.lexeme.startsPrimary)
    (hbracket : t'.lexeme = .op "(" ∨ t'.lexeme = .op ")") :
    arguments g start (t :: t' :: ts) = .ok ([.positional e], rest) := by
  have hclose : t.lexeme.isOp ")" = false := by
    cases hx : t.lexeme <;> simp_all [Lexeme.startsPrimary, Lexeme.isOp]
  rw [arguments, bind_ok (takeOp_cons _ _ _), hclose, if_neg (by simp), if_neg (by simp)]
  refine (bind_ok (argument_positional h ht hbracket)).trans ?_
  rw [bind_ok (Loops.done rfl).loop_eq]
  rfl

/-- A call is a trailer. -/
theorem trailer_call {g : Grammar} {callee : Expr} {args : List Argument} {l m m' k : Nat}
    (h : arguments g m ts = .ok (args, rest)) :
    trailer g l callee (⟨.op "(", m, m', k⟩ :: ts) = .ok (some (.call l callee args), rest) := by
  change (arguments g m >>= fun args => pure (some (Expr.call l callee args))) ts = _
  rw [bind_ok h]
  rfl

/-- A call of a name. -/
theorem primary_call {g : Grammar} {f : String} {args : List Argument} {l l' d m m' k : Nat}
    (h : arguments g m ts = .ok (args, u :: rest)) (hts : (u :: rest).length < ts.length)
    (hu : u.lexeme.endsOperand) :
    primary g (⟨.name f, l, l', d⟩ :: ⟨.op "(", m, m', k⟩ :: ts) =
      .ok (.call l (.name l f) args, u :: rest) := by
  rw [primary, bind_ok (line_cons _ _), bind_ok (p := atom g) (a := Expr.name l f) rfl]
  refine (Loops.more (trailer_call h) ?_ (Loops.done (trailer_none hu))).loop_eq
  simp only [List.length_cons] at hts ⊢
  omega

/-- A call of a method of a name. -/
theorem primary_method {g : Grammar} {o f : String} {args : List Argument}
    {l l' d k k' j i i' a m m' b : Nat}
    (h : arguments g m ts = .ok (args, u :: rest)) (hts : (u :: rest).length < ts.length)
    (hu : u.lexeme.endsOperand) :
    primary g (⟨.name o, l, l', d⟩ :: ⟨.op ".", k, k', j⟩ :: ⟨.name f, i, i', a⟩ ::
        ⟨.op "(", m, m', b⟩ :: ts) =
      .ok (.call l (.member l (.name l o) f i) args, u :: rest) := by
  have hmember : trailer g l (.name l o) (⟨.op ".", k, k', j⟩ :: ⟨.name f, i, i', a⟩ ::
      ⟨.op "(", m, m', b⟩ :: ts) =
      .ok (some (.member l (.name l o) f i), ⟨.op "(", m, m', b⟩ :: ts) := rfl
  rw [primary, bind_ok (line_cons _ _), bind_ok (p := atom g) (a := Expr.name l o) rfl]
  refine (Loops.more hmember (by simp) (Loops.more (trailer_call h) ?_
    (Loops.done (trailer_none hu)))).loop_eq
  simp only [List.length_cons] at hts ⊢
  omega

/-! ## Statements on one line -/

/-- An expression is a list of expressions where no comma follows. -/
theorem starExpressions_of_expression {g : Grammar} (h : g.expression (t :: ts) = .ok (e, u :: rest))
    (ht : t.lexeme.startsPrimary) (hu : u.lexeme.endsExpression) :
    starExpressions g (t :: ts) = .ok (e, u :: rest) := by
  have hstar : t.lexeme.isOp "*" = false := by
    cases hx : t.lexeme <;> simp_all [Lexeme.startsPrimary, Lexeme.isOp]
  have hitem : starExpression g (t :: ts) = .ok (e, u :: rest) := by
    rw [starExpression, bind_ok (line_cons _ _), bind_ok (takeOp_cons _ _ _), hstar,
      if_neg (by simp), if_neg (by simp)]
    exact h
  have hcomma : u.lexeme.isOp "," = false := by
    rcases endsExpression_cases hu with hu | hu | hu | hu | hu <;> rw [hu] <;> rfl
  rw [starExpressions, listOf, bind_ok (line_cons _ _), bind_ok hitem, bind_ok (atOp_cons _ _ _),
    hcomma, if_neg (by simp)]
  rfl

/-- An expression alone on its line is a statement. -/
theorem simpleLine_of_expression {g : Grammar} {id : String} {l l' d m m' k : Nat}
    (h : g.expression (⟨.name id, l, l', d⟩ :: ts) = .ok (e, ⟨.newline, m, m', k⟩ :: rest)) :
    simpleLine g (⟨.name id, l, l', d⟩ :: ts) = .ok ([.expr l e], rest) := by
  have hstatement : simpleStatement g (⟨.name id, l, l', d⟩ :: ts) =
      .ok (.expr l e, ⟨.newline, m, m', k⟩ :: rest) := by
    rw [simpleStatement, bind_ok (line_cons _ _), bind_ok (peek_cons _ _)]
    change expressionStatement g _ = _
    rw [expressionStatement, bind_ok (line_cons _ _), bind_ok (atOp_cons _ _ _),
      bind_ok (atWord_cons _ _ _), if_neg (by simp [Lexeme.isWord]),
      bind_ok (starExpressions_of_expression h rfl rfl)]
    rfl
  rw [simpleLine, bind_ok hstatement, bind_ok (Loops.done rfl).loop_eq]
  rfl

/-- The statement that does nothing, alone on its line. -/
theorem simpleLine_pass {g : Grammar} {l l' d m m' k : Nat} :
    simpleLine g (⟨.keyword "pass", l, l', d⟩ :: ⟨.newline, m, m', k⟩ :: rest) =
      .ok ([.pass l], rest) := by
  rw [simpleLine, bind_ok (p := simpleStatement g) (a := Stmt.pass l)
    (r := ⟨.newline, m, m', k⟩ :: rest) rfl, bind_ok (Loops.done rfl).loop_eq]
  rfl

end

end Stencil.Script
