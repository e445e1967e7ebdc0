import Stencil.Proofs.Inset.Argument
import Stencil.Proofs.Program.Colon
import Stencil.Proofs.Tree.Rendering

/-!
# The lines of an expression

An instruction that puts out the value of an expression adds the lines of a call to a program, in which the
code of the expression stands as it is. Where the code is an expression by itself, these lines are one
statement, in which the expression is the only argument of the function that makes a text of it, and the
statement evaluates the expression once and adds one text to the output. Main statement: `add_emitExpr`.
-/

namespace Stencil

open Script

/-! ## Line breaks -/

/-- A trimmed text does not end with a blank. -/
theorem Text.endsInk_trim {t : Text} (h : trim t ≠ []) : (trim t).EndsInk := by
  rw [trim, trimEnd] at h ⊢
  obtain ⟨c, r, heq⟩ := List.exists_cons_of_ne_nil (mt List.reverse_eq_nil_iff.2 h)
  refine ⟨c, by rw [List.getLast?_reverse, heq]; rfl, ?_⟩
  have hhead := List.head?_dropWhile_not isBlank (trimStart t).reverse
  rw [heq] at hhead
  exact Bool.eq_false_iff.1 hhead

namespace Script

/-- A character that is no carriage return stays as it is. -/
theorem unifyBreaks_cons {c : Char} (hc : c ≠ '\r') (r : Text) : unifyBreaks (c :: r) = c :: unifyBreaks r := by
  rw [unifyBreaks]
  · exact fun _ h => absurd h hc
  · exact hc

/-- A carriage return without a line feed behind it is a line break. -/
theorem unifyBreaks_return {r : Text} (hr : r.head? ≠ some '\n') :
    unifyBreaks ('\r' :: r) = '\n' :: unifyBreaks r := by
  rw [unifyBreaks]
  rintro r' rfl
  exact hr rfl

/-- Line breaks are unified in two parts of a text, unless one of them stands in both. -/
theorem unifyBreaks_append {t y : Text} (h : t.getLast? = some '\r' → y.head? ≠ some '\n') :
    unifyBreaks (t ++ y) = unifyBreaks t ++ unifyBreaks y := by
  have hlast {c : Char} {r : Text} (hr : r.getLast? = some '\r') : (c :: r).getLast? = some '\r' := by
    rw [List.getLast?_cons, hr, Option.getD_some]
  induction t using unifyBreaks.induct with
  | case1 => rfl
  | case2 r ih =>
      rw [List.cons_append, List.cons_append, unifyBreaks, unifyBreaks, ih fun hr => h (hlast (hlast hr)),
        List.cons_append]
  | case3 r hr ih =>
      have hhead : (r ++ y).head? ≠ some '\n' := by
        cases r with
        | nil => exact h rfl
        | cons c r => exact fun hc => hr r (by rw [Option.some.inj hc])
      have hr : r.head? ≠ some '\n' := by
        intro hc
        obtain ⟨r', rfl⟩ := List.head?_eq_some_iff.1 hc
        exact hr r' rfl
      rw [List.cons_append, unifyBreaks_return hhead, unifyBreaks_return hr, ih fun hr => h (hlast hr),
        List.cons_append]
  | case4 c r _ hc ih =>
      rw [List.cons_append, unifyBreaks_cons hc, unifyBreaks_cons hc, ih fun hr => h (hlast hr),
        List.cons_append]

/-- Unifying the line breaks leaves the other characters. -/
theorem mem_unifyBreaks {c : Char} (hreturn : c ≠ '\r') (hbreak : c ≠ '\n') {t : Text} :
    c ∈ unifyBreaks t ↔ c ∈ t := by
  induction t using unifyBreaks.induct with
  | case1 => rfl
  | case2 r ih => simp [unifyBreaks, ih, hreturn, hbreak]
  | case3 r hr ih => simp [unifyBreaks, ih, hreturn, hbreak]
  | case4 c' r _ hc' ih => rw [unifyBreaks_cons hc', List.mem_cons, List.mem_cons, ih]

/-- A text that does not end with a blank gets a break behind its last line. -/
theorem closeLastLine_unifyBreaks {t : Text} (h : t.EndsInk) :
    closeLastLine (unifyBreaks t) = unifyBreaks t ++ ['\n'] := by
  obtain ⟨c, hc, hblank⟩ := h
  obtain ⟨init, rfl⟩ := List.getLast?_eq_some_iff.1 hc
  have hbreak : c ≠ '\n' := fun h => hblank (by rw [h]; rfl)
  have hreturn : c ≠ '\r' := fun h => hblank (by rw [h]; rfl)
  have hsplit : unifyBreaks (init ++ [c]) = unifyBreaks init ++ [c] := by
    rw [unifyBreaks_append (y := [c]) fun _ h => hbreak (Option.some.inj h), unifyBreaks_cons hreturn,
      unifyBreaks]
  rw [hsplit, closeLastLine, if_neg]
  simp [hbreak]

/-! ## An expression within a call -/

namespace IsExpression

variable {text more y : Text} {line : Nat} {e : Expr}

/-- An expression is not empty. -/
theorem ne_nil (h : IsExpression text line e) : text ≠ [] := by
  rintro rfl
  obtain ⟨ts, nl, fin, heq, -⟩ := h.exists_tokens
  have hempty : lexAt [] line = [⟨.finish, line, line, 0⟩] := rfl
  rw [hempty] at heq
  cases ts with
  | nil => cases heq
  | cons t ts => simp at heq

/-- An expression that stands in a call in a call has the tokens that it has by itself, behind them is the
bracket that closes the inner call, and they are read as the only argument of that call. -/
theorem exists_argument (h : IsExpression text line e) (hink : text.EndsInk)
    (columns : List (Nat × Nat)) (hy : ClosedBy (')' :: more) y)
    (hremark : '#' ∈ text → y = '\n' :: ')' :: more) : ∃ ts line',
      Lexes (.within (unifyBreaks text ++ y) line columns [('(', line), ('(', line)])
        (ts ++ [⟨.op ")", line', line', 1⟩]) (.within more line' columns [('(', line)]) ∧
      ts.length + 2 = (lexAt text line).length ∧
      ∀ k ≥ readingLevel text (lexAt text line), ∀ start rest,
        arguments (.level k) start (ts ++ ⟨.op ")", line', line', 1⟩ :: rest) =
          .ok ([.positional e], rest) := by
  obtain ⟨ts, nl, fin, heq, hends, hnl, hfin, hread⟩ := h.exists_tokens
  have hlex := heq
  rw [lexAt, closeLastLine_unifyBreaks hink] at hlex
  have hstands : StandsIn [('(', line)] ts (ts ++ [nl, fin]) :=
    ⟨fun t ht => ⟨hends t ht, h.shallow t (by rw [heq]; exact List.mem_append_left _ ht)⟩,
      nl, fin, rfl, hnl, hfin⟩
  have hblock : BeginsNoBlock [] (ts ++ [nl, fin]) := by
    intro _ t ht hindent
    obtain ⟨us, hus⟩ := List.head?_eq_some_iff.1 ht
    rw [hus] at hread
    have hstarts := startsExpression_of_expression hread
    rw [hindent] at hstarts
    cases hstarts
  rw [← hlex] at hstands hblock
  obtain ⟨ts', line', hsame, hlexes⟩ := lexes_inset columns hstands hblock hy fun hmem =>
    hremark ((mem_unifyBreaks (by decide) (by decide)).1 hmem)
  obtain ⟨n, hn⟩ : ∃ n, readingLevel text (lexAt text line) = n + 2 := ⟨_, rfl⟩
  rw [hn] at hread ⊢
  refine ⟨ts', line', hlexes, ?_, fun k hk start rest => arguments_inset hk hread hnl hsame⟩
  rw [heq, List.length_append, hsame.length_eq]
  rfl

end IsExpression

end Script

namespace Tree

/-! ## The lines of the call -/

/-- What stands behind the code of an expression on its lines. A remark in the code is ended by a line
break. -/
def callEnding (code : Text) : Text :=
  (if code.contains '#' then ['\n'] else []) ++ [')', ')', '\n']

/-- The call that puts out the value of an expression, and a line break. -/
theorem exprCall_eq (code : Text) (escaped : Bool) : exprCall code escaped ++ ['\n'] =
    "_buf.append(".toList ++ (wrapper escaped ++ '(' :: (code ++ callEnding code)) := by
  have hwrapper : (if escaped then "_escape".toList else "_str".toList) = wrapper escaped := by
    cases escaped <;> rfl
  have hclose : "))".toList = [')', ')'] := rfl
  unfold exprCall callEnding
  simp only [hwrapper, hclose]
  cases code.contains '#' <;> simp only [Bool.false_eq_true, if_false, if_true, List.append_assoc,
    List.cons_append, List.nil_append]

/-- The lines for an expression, the first of them indented. -/
def exprRows (indent : Nat) (code : Text) (escaped : Bool) : Text :=
  List.replicate indent ' ' ++ (exprCall code escaped ++ ['\n'])

/-- Unifying the line breaks in the lines for an expression does so in its code. -/
theorem unifyBreaks_exprRows (indent : Nat) {code : Text} (hink : code.EndsInk) (escaped : Bool) :
    unifyBreaks (exprRows indent code escaped) = List.replicate indent ' ' ++ ("_buf.append(".toList ++
      (wrapper escaped ++ '(' :: (unifyBreaks code ++ callEnding code))) := by
  obtain ⟨c, hc, hblank⟩ := hink
  have hlast : code.getLast? ≠ some '\r' := by
    rw [hc]
    rintro ⟨⟩
    exact hblank rfl
  have hending : '\r' ∉ callEnding code := by
    rw [callEnding]
    split <;> decide
  have hbegin : '\r' ∉ List.replicate indent ' ' ++ ("_buf.append(".toList ++ (wrapper escaped ++ ['('])) := by
    have hcall : '\r' ∉ "_buf.append(".toList ++ (wrapper escaped ++ ['(']) := by
      cases escaped <;> decide
    intro hmem
    rcases List.mem_append.1 hmem with hmem | hmem
    · exact absurd (List.eq_of_mem_replicate hmem) (by decide)
    · exact hcall hmem
  have hrows : exprRows indent code escaped =
      (List.replicate indent ' ' ++ ("_buf.append(".toList ++ (wrapper escaped ++ ['(']))) ++
        (code ++ callEnding code) := by
    rw [exprRows, exprCall_eq]
    simp only [List.append_assoc, List.cons_append, List.nil_append]
  rw [hrows, unifyBreaks_append fun h => absurd (List.mem_of_getLast? h) hbegin,
    unifyBreaks_append fun h => absurd h hlast, unifyBreaks_eq_self hbegin, unifyBreaks_eq_self hending]
  simp only [List.append_assoc, List.cons_append, List.nil_append]

/-- The lines for an expression have two ends: the line breaks behind a remark, and the brackets. -/
theorem closedBy_callEnding (code rest : Text) :
    ClosedBy (')' :: ')' :: '\n' :: rest) (callEnding code ++ rest) ∧
      ('#' ∈ code → callEnding code ++ rest = '\n' :: ')' :: ')' :: '\n' :: rest) := by
  rw [callEnding]
  split
  · exact ⟨.newline, fun _ => rfl⟩
  · next h => exact ⟨.bracket, fun hmem => absurd (List.contains_iff_mem.2 hmem) h⟩

/-- The expression that makes a text of the value of an expression. -/
def callExpr (line : Nat) (escaped : Bool) (e : Expr) : Expr :=
  .call line (.name line (String.ofList (wrapper escaped))) [.positional e]

/-- The statement that puts out the value of an expression. -/
def putStmt (line : Nat) (escaped : Bool) (e : Expr) : Stmt :=
  appendStmt line (callExpr line escaped e)

/-- The lines for an expression, indented by some columns, are one statement. -/
theorem lexes_exprRows {code : Text} {line : Nat} {e : Expr} (h : IsExpression code line e)
    (hink : code.EndsInk) (indent : Nat) (escaped : Bool) {ends : Nat} {begins : Bool}
    {columns columns' : List (Nat × Nat)}
    (hcolumns : reindent columns indent indent = .ok (ends, begins, columns')) (rest : Text) :
    ∃ ts line', Lexes ⟨unifyBreaks (exprRows indent code escaped) ++ rest, line, true, columns, []⟩
        (blockTokens line ends begins ++ ts) ⟨rest, line', true, columns', []⟩ ∧
      ∀ k ≥ readingLevel (exprRows indent code escaped) ts, ∀ behind,
        Statements (.level k) (ts ++ behind) [putStmt line escaped e] behind := by
  obtain ⟨hclosed, hremark⟩ := closedBy_callEnding code rest
  obtain ⟨ts, line', hlexes, hlength, hread⟩ := h.exists_argument hink columns' hclosed hremark
  have hindent : Lexes ⟨List.replicate indent ' ' ++ ("_buf.append(".toList ++ (wrapper escaped ++ '(' ::
      (unifyBreaks code ++ (callEnding code ++ rest)))), line, true, columns, []⟩
      (blockTokens line ends begins) (.within ("_buf.append(".toList ++ (wrapper escaped ++ '(' ::
        (unifyBreaks code ++ (callEnding code ++ rest)))) line columns' []) :=
    lexes_indentation indent (show isWordChar '_' by decide) hcolumns
  have hcall := hindent.trans ((lexes_append _).trans ((lexes_wrapper escaped _).trans
    ((lexes_open (by simp [maxOpen])).trans (hlexes.trans (lexes_close.trans (lexes_newline rest))))))
  rw [unifyBreaks_exprRows indent hink]
  simp only [List.append_assoc, List.cons_append, List.nil_append] at hcall ⊢
  refine ⟨_, _, hcall, fun k hk behind => ?_⟩
  obtain ⟨j, rfl, hj⟩ : ∃ j, k = j + 7 ∧ readingLevel code (lexAt code line) ≤ j + 2 := by
    have hrows : code.length ≤ (exprRows indent code escaped).length := by
      rw [exprRows, exprCall_eq]
      simp only [List.length_append, List.length_cons]
      omega
    simp only [readingLevel, List.length_append, List.length_cons] at hk ⊢
    exact ⟨k - 7, by omega, by omega⟩
  have hexpression : (Grammar.level (j + 4)).expression
      (Lexeme.on (.name (String.ofList (wrapper escaped))) line 1 :: Lexeme.on (.op "(") line 2 ::
        (ts ++ ⟨.op ")", line', line', 1⟩ :: ⟨.op ")", line', line', 0⟩ :: ⟨.newline, line', line', 0⟩ ::
          behind)) =
      .ok (callExpr line escaped e, ⟨.op ")", line', line', 0⟩ :: ⟨.newline, line', line', 0⟩ :: behind) :=
    expression_of_primary (primary_call (hread _ hj _ _) (by simp; omega) rfl) rfl rfl
  simp only [List.append_assoc, List.cons_append, List.nil_append]
  exact statements_append line hexpression rfl (.inl rfl) (by simp; omega)

/-! ## Runs -/

/-- Where a statement puts a value out: the name of the output stands for a list, and the name of the
function that makes texts stands for a function. -/
structure PutsTo (env : Env) (m : Machine) (line : Nat) (escaped : Bool) (b : Address) (f : Value) :
    Prop where
  buffer : (Scope.read env Render.bufferName).run (m.onLine line) = .ok (.ref b) (m.onLine line)
  pieces : ∃ xs, m.object? b = some (.list xs)
  texts : (Scope.read env (String.ofList (wrapper escaped))).run (m.onLine line) =
    .ok f (m.onLine line)

section

variable {env : Env} {m : Machine} {line : Nat} {escaped : Bool} {b : Address} {f : Value}

/-- A statement that puts out the value of an expression evaluates the expression, makes a text of the
value, and adds the text to the output. -/
theorem PutsTo.run_putStmt (h : PutsTo env m line escaped b f) (e : Expr) (n : Nat) (rest : List Task) :
    (Statement.execute (operations (n + 3)) env (putStmt line escaped e) rest).run m = (do
      Run.atLine line
      let v ← (operations (n + 1)).eval env e
      Run.atLine line
      let t ← (operations (n + 1)).call f [v] []
      Run.atLine line
      let _ ← (operations (n + 2)).call (.method (.ref b) "append") [t] []
      Statement.proceed rest : Run Statement.Move).run m := by
  obtain ⟨xs, hxs⟩ := h.pieces
  have hname : ((operations (n + 1)).eval env (.name line (String.ofList (wrapper escaped)))).run
      (m.onLine line) = .ok f (m.onLine line) := by
    rw [run_eval_name]
    exact h.texts
  rw [putStmt, run_appendStmt h.buffer hxs, callExpr, run_eval_call (n + 1) line hname nofun]
  simp only [EStateM.run_bind, Run.run_atLine]
  cases EStateM.run ((operations (n + 1)).eval env e) (m.onLine line) with
  | error stop m₁ => rfl
  | ok v m₁ =>
      dsimp only
      cases EStateM.run ((operations (n + 1)).call f [v] []) (m₁.onLine line) with
      | error stop m₂ => rfl
      | ok t m₂ => rfl

end

/-- Whether a task hands an exception on that is raised in the tasks above it. -/
def passesOn : Task → Bool
  | .run _ | .whileLoop .. | .forLoop .. | .withItems .. => true
  | .tryBody .. | .handling _ | .finally _ | .goOn _ | .leaving .. | .awaitSent .. | .delegate .. => false

/-- An exception leaves tasks that hand it on. -/
theorem comes_raised {rest : List Task} (h : ∀ t ∈ rest, passesOn t) (least : Nat) (a : Address)
    (m : Machine) : Comes least ⟨.raised a, rest, m⟩ rest.length ⟨.raised a, [], m⟩ := by
  induction rest with
  | nil => exact .refl _ _
  | cons t rest ih =>
      have hstep : Comes least ⟨.raised a, t :: rest, m⟩ 1 ⟨.raised a, rest, m⟩ := by
        refine .of_step fun n _ => ?_
        have ht := h t List.mem_cons_self
        cases t <;> first | rfl | cases ht
      exact hstep.trans (ih fun t ht => h t (List.mem_cons_of_mem _ ht))

/-- Statements whose run comes to one that raises an exception end with it, unless a task below holds it
back. -/
theorem run_endedBy {body more : List Stmt} {s : Stmt} {rest : List Task} {m₀ m m' : Machine} {a : Address}
    {least k : Nat} (hcomes : Comes least ⟨.proceed, [.run body], m₀⟩ k ⟨.proceed, .run (s :: more) :: rest, m⟩)
    (hrest : ∀ t ∈ rest, passesOn t)
    (hs : ∀ n ≥ least, ∀ rest,
      (Statement.execute (operations n) Env.top s rest).run (m.onLine s.line) =
        .error (.raised a) m')
    (ha : (Run.isException a .exception).run m' = .ok true m') : ∃ enough, ∀ n ≥ enough,
      (endedBy (operations n) body).run m₀ = .ok (some a) m' := by
  have hdoes : Does least s m (some a) m' := .of_execute_error hs
  obtain ⟨j, hj⟩ := hdoes more rest
  have hends := (hcomes.trans hj).trans (comes_raised hrest least a m')
  refine ⟨least + (rest.length + (j + k)) + 2, fun n hn => ?_⟩
  obtain ⟨fuel, rfl⟩ : ∃ fuel, n = (fuel + 1 + (rest.length + (j + k))) + 1 :=
    ⟨n - (rest.length + (j + k)) - 2, by omega⟩
  have hrun := hends (fuel + 1 + (rest.length + (j + k))) (by omega) (fuel + 1)
  have hresume : ((operations (fuel + 1 + (rest.length + (j + k)) + 1)).resume Env.top .proceed
      [.run body]).run m₀ = .error (.raised a) m' := hrun
  rw [endedBy, Run.catching, Run.run_tryCatch, EStateM.run_bind, hresume]
  dsimp only
  rw [EStateM.run_bind, ha]
  rfl

/-- A new namespace has a list for the output and the two functions that make texts: the escape of the
context and the plain one. -/
theorem putsTo_start {ops : Ops} {context : Value} {space : Entries} {m m' : Machine}
    (h : (Render.namespaceOf ops context).run m = .ok space m') (line : Nat) (escaped : Bool) :
    ∃ b escape m₁ m₂, (ops.member context "escape").run m₁ = .ok escape m₂ ∧
      PutsTo Env.top (startMachine m' space) line escaped b
        (if escaped then escape else .native .plainText) := by
  rw [Render.namespaceOf, EStateM.run_bind] at h
  cases hes : (Context.bindings ops context).run m with
  | error stop m₁ =>
      rw [hes] at h
      cases h
  | ok es m₁ =>
      rw [hes] at h
      dsimp only at h
      rw [EStateM.run_bind] at h
      cases hescape : (ops.member context "escape").run m₁ with
      | error stop m₂ =>
          rw [hescape] at h
          cases h
      | ok escape m₂ =>
          rw [hescape] at h
          cases h
          have hbuffer (o : Object) : ((m₂.push (.list #[])).push o).object? m₂.fresh = some (.list #[]) :=
            (Machine.object?_push_of_lt _ _ _ (by simp [Machine.fresh])).trans
              (m₂.object?_push_fresh _)
          refine ⟨m₂.fresh, escape, m₁, m₂, hescape, ?_, ⟨#[], hbuffer _⟩, ?_⟩
          · exact run_read (Machine.object?_push_fresh _ _) (by
              simp [Entries.named?_insert, Render.bufferName]
              rfl)
          · refine run_read (Machine.object?_push_fresh _ _) ?_
            cases escaped <;> simp [Entries.named?_insert, Render.bufferName, wrapper]

/-- What a statement does that puts the text of the value of an expression out. -/
structure PutsValue (s : Stmt) (line : Nat) (escaped : Bool) (e : Expr) : Prop where
  /-- The text is made by the escape of the context, or it is the plain one. -/
  starts : ∀ {ops : Ops} {context : Value} {space : Entries} {m m' : Machine},
    (Render.namespaceOf ops context).run m = .ok space m' → ∃ b escape m₁ m₂,
      (ops.member context "escape").run m₁ = .ok escape m₂ ∧
        PutsTo Env.top (startMachine m' space) line escaped b
          (if escaped then escape else .native .plainText)
  /-- The expression is evaluated once, and one text is added to the output, that of its value. -/
  puts : ∀ {env : Env} {m m₁ m₂ : Machine} {b : Address} {f v t : Value} {xs : Array Value} {n : Nat},
    PutsTo env m line escaped b f →
    ((operations (n + 1)).eval env e).run (m.onLine line) = .ok v m₁ →
    ((operations (n + 1)).call f [v] []).run (m₁.onLine line) = .ok t m₂ →
    m₂.object? b = some (.list xs) → ∀ rest,
      (Statement.execute (operations (n + 3)) env s rest).run m =
        .ok (.next .proceed rest) ((m₂.onLine line).put b (.list (xs.push t)))
  /-- Nothing is added when there is no text of the value. -/
  refused : ∀ {env : Env} {m m₁ m₂ : Machine} {b : Address} {f v : Value} {stop : Stop} {n : Nat},
    PutsTo env m line escaped b f →
    ((operations (n + 1)).eval env e).run (m.onLine line) = .ok v m₁ →
    ((operations (n + 1)).call f [v] []).run (m₁.onLine line) = .error stop m₂ → ∀ rest,
      (Statement.execute (operations (n + 3)) env s rest).run m = .error stop m₂
  /-- Nothing is added when there is no value. -/
  failed : ∀ {env : Env} {m m₁ : Machine} {b : Address} {f : Value} {stop : Stop} {n : Nat},
    PutsTo env m line escaped b f →
    ((operations (n + 1)).eval env e).run (m.onLine line) = .error stop m₁ → ∀ rest,
      (Statement.execute (operations (n + 3)) env s rest).run m = .error stop m₁
  /-- An exception that the expression raises is the one that is reported, when the run of a template comes
  to the statement and nothing around it holds the exception back. -/
  reported : ∀ {body more : List Stmt} {rest : List Task} {m₀ m m' : Machine} {b a : Address} {f : Value}
    {least k : Nat},
    Comes least ⟨.proceed, [.run body], m₀⟩ k ⟨.proceed, .run (s :: more) :: rest, m⟩ →
    (∀ t ∈ rest, passesOn t) → PutsTo Env.top m line escaped b f →
    (∀ n ≥ least, ((operations n).eval Env.top e).run (m.onLine line) = .error (.raised a) m') →
    (Run.isException a .exception).run m' = .ok true m' → ∃ enough, ∀ n ≥ enough,
      ∀ (p : Program) (context : Value) (space : Entries) (m₁ m₂ : Machine),
        (Render.namespaceOf (operations n) context).run m₁ = .ok space m₂ →
        startMachine m₂ space = m₀ →
          (Render.runBody (operations n) p true body context).run m₁ =
            (concluded (operations n) p (some a)).run m'

/-- The statement for an expression puts the text of its value out. -/
theorem putsValue_putStmt (line : Nat) (escaped : Bool) (e : Expr) :
    PutsValue (putStmt line escaped e) line escaped e where
  starts h := putsTo_start h line escaped
  puts {env m m₁ m₂ b f v t xs n} h hv ht hxs rest := by
    have hxs : (m₂.onLine line).object? b = some (.list xs) := hxs
    rw [h.run_putStmt]
    simp only [EStateM.run_bind, Run.run_atLine, hv, ht, run_call_append (n + 1) hxs]
    rfl
  refused h hv ht rest := by
    rw [h.run_putStmt]
    simp only [EStateM.run_bind, Run.run_atLine, hv, ht]
  failed h hv rest := by
    rw [h.run_putStmt]
    simp only [EStateM.run_bind, Run.run_atLine, hv]
  reported {body more rest m₀ m m' b a f least k} hcomes hrest h he ha := by
    have h : PutsTo Env.top (m.onLine line) line escaped b f := ⟨h.1, h.2, h.3⟩
    have hs : ∀ n ≥ least + 3, ∀ rest,
        (Statement.execute (operations n) Env.top (putStmt line escaped e) rest).run (m.onLine line) =
          .error (.raised a) m' := by
      intro n hn rest
      obtain ⟨n, rfl⟩ := Nat.exists_eq_add_of_le' (Nat.le_of_add_left_le hn)
      rw [h.run_putStmt]
      simp only [EStateM.run_bind, Run.run_atLine, Machine.onLine_onLine, he (n + 1) (by omega)]
    have hcomes' : Comes (least + 3) _ k _ := fun n hn => hcomes n (by omega)
    obtain ⟨enough, hended⟩ := run_endedBy hcomes' hrest hs ha
    refine ⟨enough, fun n hn p context space m₁ m₂ hspace hstart => ?_⟩
    rw [run_runBody_eq p body hspace, hstart, EStateM.run_bind, hended n hn]

/-! ## The instruction -/

/-- Rows of a program, the first of them indented by some columns, are one statement from a line on,
wherever the indentation fits the enclosing ones and whatever follows. -/
def ReadsAs (rows : Text) (indent line : Nat) (s : Stmt) : Prop :=
  ∀ {ends : Nat} {begins : Bool} {columns columns' : List (Nat × Nat)},
    reindent columns indent indent = .ok (ends, begins, columns') → ∀ rest, ∃ ts line',
      Lexes ⟨unifyBreaks rows ++ rest, line, true, columns, []⟩ (blockTokens line ends begins ++ ts)
        ⟨rest, line', true, columns', []⟩ ∧
      ∀ k ≥ readingLevel rows ts, ∀ behind, Statements (.level k) (ts ++ behind) [s] behind

/-- Of the lines of an expression only the first is indented. -/
theorem map_generated (indent : Nat) (line : Int) (l : Text) (ls : List Text) :
    (((l :: ls).zipIdx.map fun x => (⟨line + x.2, x.1, x.2 = 0⟩ : CodeLine)).map (·.generated indent)) =
      (List.replicate indent ' ' ++ l) :: ls := by
  have hmore (k : Nat) : (((ls.zipIdx (k + 1)).map fun x =>
      (⟨line + x.2, x.1, x.2 = 0⟩ : CodeLine)).map (·.generated indent)) = ls := by
    induction ls generalizing k with
    | nil => rfl
    | cons l ls ih =>
        rw [List.zipIdx_cons, List.map_cons, List.map_cons, ih (k + 1)]
        rfl
  rw [List.zipIdx_cons, List.map_cons, List.map_cons, hmore 0]
  rfl

/-- The lines of a text, each with the break behind it, are the text with a break behind it. -/
theorem flatMap_lines (t : Text) : (Text.lines t).flatMap (· ++ ['\n']) = t ++ ['\n'] := by
  have hjoin (l : Text) (ls : List Text) :
      (l :: ls).flatMap (· ++ ['\n']) = Text.joinLines (l :: ls) ++ ['\n'] := by
    induction ls generalizing l with
    | nil => simp [Text.joinLines]
    | cons l' ls ih =>
        rw [List.flatMap_cons, ih]
        simp [Text.joinLines]
  obtain ⟨l, ls, heq⟩ := List.exists_cons_of_ne_nil (Text.lines_ne_nil t)
  rw [heq, hjoin, ← heq, Text.joinLines_lines]

/-- The lines for an expression stand behind those of the program. -/
theorem text_addExpr (b : Builder) {code : Text} (hcode : Text.trim code ≠ []) (escaped : Bool)
    (line : Int) :
    (b.addExpr code escaped line).text = b.text ++ exprRows b.indent (Text.trim code) escaped := by
  obtain ⟨l, ls, heq⟩ := List.exists_cons_of_ne_nil
    (Text.lines_ne_nil (exprCall (Text.trim code) escaped))
  rw [Builder.addExpr_eq_addCode, Builder.text, Builder.addCode_lines, List.flatMap_append, exprLines,
    if_neg (by simpa using hcode), heq, map_generated, exprRows, ← flatMap_lines, heq]
  simp only [List.flatMap_cons, List.append_assoc]
  rfl

/-- **An expression is the only argument of its call.** An instruction that puts out the value of an
expression adds lines behind those of the program that are one statement, which evaluates the expression
once and adds one text to the output, that of its value. Where the expression fails nothing is added, and
its exception is reported. -/
theorem add_emitExpr (b : Builder) (template : String) (line : Int) (escaped : Bool) {code : Text}
    {start : Nat} {e : Expr} (h : IsExpression (Text.trim code) start e) :
    ∃ b' rows, b.add template (.emitExpr code escaped line) = .ok b' ∧ b'.text = b.text ++ rows ∧
      ReadsAs rows b.indent start (putStmt start escaped e) ∧
      PutsValue (putStmt start escaped e) start escaped e :=
  ⟨_, _, rfl, text_addExpr b h.ne_nil escaped line,
    lexes_exprRows h (Text.endsInk_trim h.ne_nil) b.indent escaped, putsValue_putStmt start escaped e⟩

/-- A tuple in brackets, with a remark behind it that holds a bracket. -/
def tupleExpr : Expr :=
  .display 2 .tuple [.name 2 "x", .constant 2 (.int 1)]

set_option maxRecDepth 20000 in
/-- The remark and its bracket are no part of the expression. -/
theorem isExpression_tuple : IsExpression "(x, 1) # )".toList 2 tupleExpr where
  reads := ⟨⟨.newline, 2, 2, 0⟩, ⟨.finish, 3, 3, 0⟩, rfl, rfl, by rfl⟩
  shallow := by
    have hdepths : (lexAt "(x, 1) # )".toList 2).map (·.depth) = [1, 1, 1, 1, 0, 0, 0] := by rfl
    have hshallow : ∀ d ∈ [1, 1, 1, 1, 0, 0, 0], d + 2 ≤ maxOpen := by decide
    exact fun t ht => hshallow t.depth (hdepths ▸ List.mem_map_of_mem ht)

/-- Within a block, the tuple is put out by the lines of its call. -/
theorem add_emitExpr_tuple :
    IsExpression (Text.trim " (x, 1) # ) ".toList) 2 tupleExpr ∧
    ∃ b' rows, (Builder.empty.openBlock "if".toList 1).add "t"
        (.emitExpr " (x, 1) # ) ".toList true 2) = .ok b' ∧
      b'.text = (Builder.empty.openBlock "if".toList 1).text ++ rows ∧
      ReadsAs rows 4 2 (putStmt 2 true tupleExpr) ∧ PutsValue (putStmt 2 true tupleExpr) 2 true tupleExpr :=
  have h : IsExpression (Text.trim " (x, 1) # ) ".toList) 2 tupleExpr := isExpression_tuple
  ⟨h, add_emitExpr (Builder.empty.openBlock "if".toList 1) "t" 2 true h⟩

end Tree

end Stencil
