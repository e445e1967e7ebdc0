import Stencil.Proofs.Located.Expressions

/-!
# Statements that stand on lines of a kind

Every node of the statements of a script starts on a line on which a token stands that may start a node
(`within_of_parse`).
-/

namespace Stencil.Script

open Parse

section

variable {P : Nat → Prop} {g : Grammar} {x : Lexeme}

/-! ## Patterns -/

/-- Further names behind dots. -/
theorem reads_dotted {l : Nat} (hl : P l) {e : Expr} (he : e.Within (lineLimits P)) :
    ReadsWithin P (dotted l e) (Expr.Within (lineLimits P)) := by
  intro x
  refine .loop _ he fun e he y => .takeOp rfl (fun _ z => .line fun idLine hline => ?_) .done
  exact .bind .name fun hz id _ _ => .more (.member hl he (hline hz))

/-- A number that a pattern holds. -/
theorem begins_patternNumber : Begins P patternNumber (Expr.Within (lineLimits P)) := by
  intro x
  refine .line fun l hl => .takeOrNot rfl fun negative y hy => .peek ?_
  cases y with
  | number n =>
      have hl : P l := hl (hy rfl)
      refine .node rfl (.advance fun z => .next (reads_numberExpr hl n z) fun e he u => ?_)
      have he : (if negative = true then .unary l .negate e else e : Expr).Within (lineLimits P) := by
        split
        · exact .unary hl he
        · exact he
      refine .atOp (fun _ => .atOp (fun _ => ?_) ?_) (.atOp (fun _ => ?_) (.pure he))
      -- behind either sign only an imaginary part may stand
      all_goals
        refine .advance fun v => .peek ?_
        split
        · exact .line fun l' hl' => .advance fun _ => .pure (.binary hl he (.constant (hl' rfl)))
        · exact .fails fun _ => ⟨_, rfl⟩
  | _ => exact .fails fun _ => ⟨_, rfl⟩

/-- The name that a pattern binds. -/
theorem reads_captureName : ReadsWithin P captureName fun _ => True :=
  fun _ => .next .name fun _ _ _ => .any

/-- One item of a sequence pattern. -/
theorem Grammar.Located.patternItem (h : g.Located P) :
    Begins P (Script.patternItem g) (Pattern.Within (lineLimits P)) := by
  intro x
  refine .line fun l hl => .takeOp rfl (fun hx y => ?_) (h.pattern x)
  exact .next (reads_captureName y) fun _ _ _ => .pure (.star (hl hx) fun _ _ => trivial)

/-- The items of a sequence pattern. -/
theorem Grammar.Located.patternItems (h : g.Located P) (ending : String) :
    ReadsWithin P (Script.patternItems g ending) fun r => ∀ p ∈ r.1, p.Within (lineLimits P) := by
  intro x
  refine .atOp (fun _ => .pure (by simp)) (.bind (h.patternItem x) fun _ first hfirst y => ?_)
  refine .next (.loop (fun r : List Pattern × Bool => ∀ p ∈ r.1, p.Within (lineLimits P))
    (by simpa using hfirst) fun acc hacc z => ?_) fun r hr _ => .pure (by simpa using hr)
  refine .takeOp rfl (fun _ u => .atOp (fun _ => .more hacc) ?_) ?_
  · exact .bind (h.patternItem u) fun _ p hp _ => .more (by simpa [hp] using hacc)
  · cases acc.2 <;> exact .done

/-- The items of a mapping pattern stand on lines of a kind. -/
def MappingItem.Located (P : Nat → Prop) (i : Expr × Pattern) : Prop :=
  i.1.Within (lineLimits P) ∧ i.2.Within (lineLimits P)

/-- An item of a mapping pattern. -/
theorem Grammar.Located.mappingItem (h : g.Located P) :
    ReadsWithin P (Script.mappingItem g) (MappingItem.Located P) := by
  intro x
  have hbehind (key : Expr) (hkey : key.Within (lineLimits P)) (y : Lexeme) : ReadsAt P false y
      (do
        expectOp ":"
        let p ← g.pattern
        return (key, p)) (MappingItem.Located P) :=
    .expectOp rfl fun _ z => .bind (h.pattern z) fun _ p hp _ => .pure ⟨hkey, hp⟩
  refine .line fun l hl => .peek ?_
  split
  · refine .advance fun y => .next (reads_dotted (hl rfl) (.name (hl rfl) trivial) y) fun e he z => ?_
    cases e with
    | name => exact .fails fun _ => ⟨_, rfl⟩
    | _ => exact hbehind _ he z
  · exact .next (h.strings _) fun e he z => hbehind e he z
  iterate 3
    · exact .advance fun y => hbehind _ (.constant (hl rfl)) y
  · exact .bind (begins_patternNumber _) fun _ e he z => hbehind e he z

/-- A mapping pattern. -/
theorem Grammar.Located.mappingPattern (h : g.Located P) :
    Begins P (Script.mappingPattern g) (Pattern.Within (lineLimits P)) := by
  intro x
  have hitem (acc : List (Expr × Pattern) × Option String) (hacc : ∀ i ∈ acc.1, MappingItem.Located P i) :
      ReadsWithin P (Script.mappingPattern.item g acc) fun acc => ∀ i ∈ acc.1, MappingItem.Located P i := by
    intro y
    unfold mappingPattern.item
    cases acc.2.isSome with
    | true => exact .fails fun _ => ⟨_, rfl⟩
    | false =>
        refine .takeOp rfl (fun _ z => .next .name fun id _ _ => ?_) ?_
        · cases id == "_" with
          | true => exact .fails fun _ => ⟨_, rfl⟩
          | false => exact .pure hacc
        · exact .next (h.mappingItem y) fun i hi _ => .pure (by simpa [hi] using hacc)
  refine .line fun l hl => .expectOp rfl fun hx y => .takeOp rfl (fun _ _ => ?_) ?_
  · exact .pure (.mapping (hl hx) (by simp) (by simp) nofun)
  · refine .next (hitem _ (by simp) y) fun first hfirst z => ?_
    refine .next (.loop (fun acc : List (Expr × Pattern) × Option String => ∀ i ∈ acc.1, MappingItem.Located P i)
      hfirst fun acc hacc u => ?_) fun acc hacc _ => .expectOp rfl fun _ _ => .pure ?_
    · refine .takeOp rfl (fun _ v => .atOp (fun _ => .done) ?_) .done
      exact .next (hitem acc hacc v) fun acc hacc _ => .more hacc
    · exact .mapping (hl hx) (fun i hi => (hacc i (List.mem_reverse.1 hi)).1)
        (fun i hi => (hacc i (List.mem_reverse.1 hi)).2) fun _ _ => trivial

/-- The arguments of a class pattern stand on lines of a kind. -/
def ClassArguments.Located (P : Nat → Prop) (r : List Pattern × List (String × Pattern)) : Prop :=
  (∀ p ∈ r.1, p.Within (lineLimits P)) ∧ ∀ i ∈ r.2, i.2.Within (lineLimits P)

/-- An argument of a class pattern. -/
theorem Grammar.Located.classArgument (h : g.Located P) (acc : List Pattern × List (String × Pattern))
    (start : Nat) (hacc : ClassArguments.Located P acc) :
    ReadsWithin P (Script.classArgument g acc start) (ClassArguments.Located P) := by
  intro x
  refine .peek (.peekSecond fun y => ?_)
  split
  · refine .advance fun _ => .advance fun z => .bind (h.pattern z) fun _ p hp _ => .pure ⟨hacc.1, ?_⟩
    simpa [hp] using hacc.2
  · refine .bind (h.pattern _) fun _ p hp _ => ?_
    cases acc.2.isEmpty with
    | true => exact .pure ⟨by simpa [hp] using hacc.1, hacc.2⟩
    | false => exact .fails fun _ => ⟨_, rfl⟩

/-- A class pattern behind its class. -/
theorem Grammar.Located.classPattern (h : g.Located P) {l : Nat} (hl : P l) {callee : Expr}
    (hcallee : callee.Within (lineLimits P)) :
    ReadsWithin P (Script.classPattern g l callee) (Pattern.Within (lineLimits P)) := by
  intro x
  refine .expectOp rfl fun _ y => .takeClosing (fun _ => .pure (.ofClass hl hcallee (by simp) (by simp))) ?_
  refine .line fun start _ => .next (h.classArgument _ start ⟨by simp, by simp⟩ y) fun first hfirst z => ?_
  refine .next (.loop (ClassArguments.Located P) hfirst fun acc hacc u => ?_) fun acc hacc _ =>
    .expectClosing fun _ => .pure ?_
  · refine .takeOp rfl (fun _ v => .atOp (fun _ => .done) ?_) .done
    exact .next (h.classArgument acc start hacc v) fun acc hacc _ => .more hacc
  · exact .ofClass hl hcallee (fun p hp => hacc.1 p (List.mem_reverse.1 hp))
      fun i hi => hacc.2 i (List.mem_reverse.1 hi)

/-- A pattern without alternatives. -/
theorem Grammar.Located.closedPattern (h : g.Located P) :
    Begins P (Script.closedPattern g) (Pattern.Within (lineLimits P)) := by
  intro x
  refine .line fun l hl => .peek ?_
  split
  iterate 2
    · exact .bind (begins_patternNumber _) fun hx e he _ => .pure (.value (hl hx) he)
  · exact .node rfl (.next (h.strings _) fun e he _ => .pure (.value (hl rfl) he))
  iterate 3
    · exact .node rfl (.advance fun _ => .pure (.singleton (hl rfl)))
  · refine .node rfl (.advance fun y => .next (h.patternItems _ y) fun r hr _ => .expectClosing fun _ => ?_)
    obtain ⟨items, comma⟩ := r
    dsimp only
    split
    · split
      · exact .fails fun _ => ⟨_, rfl⟩
      · exact .pure (hr _ List.mem_cons_self)
    · exact .pure (.sequence (hl rfl) hr)
  · refine .node rfl (.advance fun y => .next (h.patternItems _ y) fun r hr _ => .expectOp rfl fun _ _ => ?_)
    exact .pure (.sequence (hl rfl) hr)
  · exact h.mappingPattern _
  · refine .node rfl (.advance fun y => ?_)
    refine .next (reads_dotted (hl rfl) (.name (hl rfl) trivial) y) fun e he z => ?_
    refine .atOp (fun _ => h.classPattern (hl rfl) he z) ?_
    cases e with
    | name =>
        refine .pure ?_
        split
        · exact .wildcard (hl rfl)
        · exact .capture (hl rfl) trivial
    | _ => exact .pure (.value (hl rfl) he)
  · exact .fails fun _ => ⟨_, rfl⟩

/-- A pattern. -/
theorem Grammar.Located.patternOf (h : g.Located P) :
    Begins P (Script.pattern g) (Pattern.Within (lineLimits P)) := by
  intro x
  refine .line fun l hl => .bind (h.closedPattern x) fun hx first hfirst y => ?_
  refine .next (.loop (fun ps => ∀ p ∈ ps, p.Within (lineLimits P)) (by simpa using hfirst) fun acc hacc z => ?_)
    fun more hmore z => ?_
  · exact .takeOp rfl (fun _ u => .bind (h.closedPattern u) fun _ p hp _ => .more (by simpa [hp] using hacc)) .done
  · have hp : (if more.length = 1 then first else .either l more.reverse : Pattern).Within (lineLimits P) := by
      split
      · exact hfirst
      · exact .either (hl hx) (by simpa using hmore)
    refine .takeWord (fun _ u => .line fun idLine _ => .peek ?_) (.pure hp)
    cases u with
    | name id =>
        dsimp only
        cases id == "_" with
        | true => exact .fails fun _ => ⟨_, rfl⟩
        | false => exact .advance fun _ => .pure (.named (hl hx) hp trivial)
    | _ => exact .fails fun _ => ⟨_, rfl⟩

/-- The pattern of a case. -/
theorem Grammar.Located.openPattern (h : g.Located P) :
    Begins P (Script.openPattern g) (Pattern.Within (lineLimits P)) := by
  intro x
  refine .line fun l hl => .bind (h.patternItem x) fun hx first hfirst y => .atOp (fun _ => ?_) ?_
  · refine .next (.loop (fun ps => ∀ p ∈ ps, p.Within (lineLimits P)) (by simpa using hfirst) fun acc hacc z => ?_)
      fun ps hps _ => .pure (.sequence (hl hx) (by simpa using hps))
    refine .takeOp rfl (fun _ u => .atOp (fun _ => .atWord (fun _ => .done) .done) (.atWord (fun _ => .done) ?_)) .done
    exact .bind (h.patternItem u) fun _ p hp _ => .more (by simpa [hp] using hacc)
  · cases first with
    | star => exact .fails fun _ => ⟨_, rfl⟩
    | _ => exact .pure hfirst

/-! ## Simple statements -/

/-- The targets and the value of an assignment read so far stand on lines of a kind. -/
def Assignment.Located (P : Nat → Prop) (r : List Expr × Expr) : Prop :=
  (∀ t ∈ r.1, t.Within (lineLimits P)) ∧ r.2.Within (lineLimits P)

/-- The assignments behind a first target. -/
theorem Grammar.Located.assignment (h : g.Located P) {l : Nat} (hl : P l) {first : Expr}
    (hfirst : first.Within (lineLimits P)) :
    ReadsWithin P (Script.assignment g l first) (Stmt.Within (lineLimits P)) := by
  intro x
  refine .next (reads_checkTarget .assigned first x) fun _ _ y => ?_
  refine .next (.loop (Assignment.Located P) ⟨by simp, hfirst⟩ fun acc hacc z => ?_) fun acc hacc _ =>
    .pure (.assign hl (by simpa using hacc.1) hacc.2)
  obtain ⟨targets, value⟩ := acc
  refine .atOp (fun _ => ?_) .done
  have htargets : ∀ t ∈ value :: targets, t.Within (lineLimits P) := by simpa [hacc.2] using hacc.1
  have hmore (u : Lexeme) : ReadsAt P false u
      (do
        checkTarget .assigned value
        advance
        let v ← Script.yieldOrExpressions g
        return some (value :: targets, v)) fun r => ∀ a ∈ r, Assignment.Located P a := by
    refine .next (reads_checkTarget .assigned value u) fun _ _ _ => .advance fun v => ?_
    exact .bind (h.yieldOrExpressions v) fun _ e he _ => .more ⟨htargets, he⟩
  cases value with
  | yieldValue | yieldFrom => exact .fails fun _ => ⟨_, rfl⟩
  | _ => exact hmore z

/-- A hint behind a target. -/
theorem Grammar.Located.declaration (h : g.Located P) {l : Nat} (hl : P l) {target : Expr}
    (htarget : target.Within (lineLimits P)) (bracketed : Bool) :
    ReadsWithin P (Script.declaration g l target bracketed) (Stmt.Within (lineLimits P)) := by
  intro x
  refine .expectOp rfl fun _ y => .bind (h.expression y) fun _ hint hhint z => ?_
  cases isSingleTarget target with
  | false => exact .fails fun _ => ⟨_, rfl⟩
  | true =>
      refine .takeOp rfl (fun _ u => .bind (h.yieldOrExpressions u) fun _ v hv _ => ?_) ?_
      · exact .pure (.declare hl htarget hhint fun e he => Option.mem_some.1 he ▸ hv)
      · exact .pure (.declare hl htarget hhint nofun)

/-- An expression statement or an assignment. -/
theorem Grammar.Located.expressionStatement (h : g.Located P) :
    Begins P (Script.expressionStatement g) (Stmt.Within (lineLimits P)) := by
  intro x
  refine .line fun l hl => .atOrNot fun bracketed => .atWord (fun _ => ?_) ?_
  · refine .bind (h.yieldExpression x) fun hx e he _ => ?_
    exact .atOp (fun _ => .fails fun _ => ⟨_, rfl⟩) (.pure (.expr (hl hx) he))
  · refine .bind (h.starExpressions x) fun hx e he y => .peek ?_
    have hl : P l := hl hx
    split
    · exact h.assignment hl he _
    · exact h.declaration hl he bracketed _
    · split
      · refine .advance fun z => .bind (h.yieldOrExpressions z) fun _ v hv _ => ?_
        cases isSingleTarget e with
        | true => exact .pure (.augment hl he hv)
        | false => exact .fails fun _ => ⟨_, rfl⟩
      · exact .pure (.expr hl he)
    · exact .pure (.expr hl he)

/-- A path of names and dots. -/
theorem reads_dottedPath : ReadsWithin P dottedPath fun _ => True :=
  fun _ => .next .name fun _ _ _ => .loop _ trivial fun _ _ _ =>
    .takeOp rfl (fun _ _ => .next .name fun _ _ _ => .more trivial) .done

/-- A name for something imported. -/
theorem reads_aliasFor (path : String) : ReadsWithin P (aliasFor path) fun _ => True :=
  fun _ => .takeWord (fun _ _ => .next .name fun _ _ _ => .any) .any

/-- Things separated by commas. -/
theorem reads_commaList {α : Type} {item : Parse α} {Q : α → Prop} (h : ReadsWithin P item Q) :
    ReadsWithin P (commaList item) fun as => ∀ a ∈ as, Q a := by
  intro x
  refine .next (h x) fun first hfirst y => ?_
  refine .next (.loop (fun as => ∀ a ∈ as, Q a) (by simpa using hfirst) fun acc hacc z => ?_)
    fun as has _ => .pure (by simpa using has)
  exact .takeOp rfl (fun _ u => .next (h u) fun a ha _ => .more (by simpa [ha] using hacc)) .done

/-- An import of modules. -/
theorem begins_importStatement : Begins P importStatement (Stmt.Within (lineLimits P)) := by
  intro x
  refine .line fun l hl => .expectWord fun hx y => ?_
  refine .next (reads_commaList (Q := fun _ => True) (fun z => ?_) y) fun _ _ _ => .pure (.importModule (hl hx))
  exact .next (reads_dottedPath z) fun path _ => reads_aliasFor path

/-- The leading dots of a relative path. -/
theorem reads_relativeLevel : ReadsWithin P relativeLevel fun _ => True :=
  fun _ => .loop _ trivial fun _ _ _ => .takeOp rfl (fun _ _ => .more trivial)
    (.takeOp rfl (fun _ _ => .more trivial) .done)

/-- The names imported from a module. -/
theorem reads_importedNames : ReadsWithin P importedNames fun _ => True := by
  intro x
  have hone : ReadsWithin P (do aliasFor (← name)) fun _ => True :=
    fun _ => .next .name fun path _ => reads_aliasFor path
  refine .takeOp rfl (fun _ _ => .any) (.takeOp rfl (fun _ y => ?_) ?_)
  · refine .next (hone y) fun first _ z => .next (.loop (fun _ => True) trivial fun acc _ u => ?_)
      fun _ _ _ => .expectClosing fun _ => .any
    exact .takeOp rfl (fun _ v => .atOp (fun _ => .done) (.next (hone v) fun _ _ _ => .more trivial)) .done
  · exact .next (reads_commaList hone x) fun _ _ _ => .any

/-- An import from a module. -/
theorem begins_importFromStatement : Begins P importFromStatement (Stmt.Within (lineLimits P)) := by
  intro x
  have hrest {l : Nat} (hl : P l) (level : Nat) (path : Option String) : ReadsWithin P
      (do
        expectWord "import"
        let names ← importedNames
        return Stmt.importFrom l level path names) (Stmt.Within (lineLimits P)) :=
    fun _ => .expectWord fun _ y => .next (reads_importedNames y) fun names _ _ =>
      .pure (.importFrom hl fun _ _ _ _ => trivial)
  refine .line fun l hl => .expectWord fun hx y => .next (reads_relativeLevel y) fun level _ z => ?_
  have hpath : ReadsAt P false z
      (do
        let p ← dottedPath
        let path ← pure (some p)
        expectWord "import"
        let names ← importedNames
        return Stmt.importFrom l level path names) (Stmt.Within (lineLimits P)) :=
    .next (reads_dottedPath z) fun p _ => hrest (hl hx) level (some p)
  refine .atWord (fun _ => ?_) ?_
  · dsimp only
    cases decide (level ≠ 0) with
    | true => exact hrest (hl hx) level none z
    | false => exact hpath
  · cases decide (level ≠ 0) <;> exact hpath

/-- Looking for the end of a simple statement. -/
theorem reads_atStatementEnd : ReadsWithin P atStatementEnd fun _ => True := by
  intro x
  refine .peek ?_
  split <;> exact .any

/-- A statement that deletes targets. -/
theorem Grammar.Located.deleteStatement (h : g.Located P) :
    Begins P (Script.deleteStatement g) (Stmt.Within (lineLimits P)) := by
  intro x
  refine .line fun l hl => .expectWord fun hx y => .bind (h.starExpressions y) fun _ e he z => ?_
  refine .next (reads_checkTarget .deleted e z) fun _ _ u => .next (reads_atStatementEnd u) fun b _ _ => ?_
  cases b with
  | true => exact .pure (.delete (hl hx) (by simpa using he))
  | false => exact .fails fun _ => ⟨_, rfl⟩

/-- An optional expression behind a word. -/
theorem Begins.behindWord {p : Parse Expr} (h : Begins P p (Expr.Within (lineLimits P))) (w : String) :
    ReadsWithin P (behindWord w p) fun v : Option Expr => ∀ e ∈ v, e.Within (lineLimits P) :=
  fun _ => .takeWord (fun _ y => .bind (h y) fun _ _ he _ => .more he) .done

/-- A simple statement. -/
theorem Grammar.Located.simpleStatement (h : g.Located P) :
    Begins P (Script.simpleStatement g) (Stmt.Within (lineLimits P)) := by
  intro x
  have hsome {e : Expr} (he : e.Within (lineLimits P)) : ∀ v ∈ some e, Expr.Within (lineLimits P) v :=
    fun v hv => Option.mem_some.1 hv ▸ he
  refine .line fun l hl => .peek ?_
  split
  · exact .node rfl (.advance fun _ => .pure (.pass (hl rfl)))
  · exact .node rfl (.advance fun _ => .pure (.breakLoop (hl rfl)))
  · exact .node rfl (.advance fun _ => .pure (.continueLoop (hl rfl)))
  · refine .node rfl (.advance fun y => .peek ?_)
    cases y.startsItem with
    | true => exact .bind (h.starExpressions y) fun _ e he _ => .pure (.ret (hl rfl) (hsome he))
    | false => exact .pure (.ret (hl rfl) nofun)
  · refine .node rfl (.advance fun y => .peek ?_)
    cases y.startsExpression with
    | true =>
        refine .bind (h.expression y) fun _ e he z => .next (h.expression.behindWord "from" z) fun c hc _ => ?_
        exact .pure (.raise (hl rfl) (hsome he) hc)
    | false => exact .pure (.raise (hl rfl) nofun nofun)
  · refine .node rfl (.advance fun y => .bind (h.expression y) fun _ test htest z => .takeOp rfl (fun _ u => ?_) ?_)
    · exact .bind (h.expression u) fun _ m hm _ => .pure (.assert (hl rfl) htest (hsome hm))
    · exact .pure (.assert (hl rfl) htest nofun)
  · refine .node rfl (.advance fun y => ?_)
    exact .next (reads_commaList (Q := fun _ => True) (fun _ => .name) y) fun _ _ _ => .pure (.global (hl rfl))
  · refine .node rfl (.advance fun y => ?_)
    exact .next (reads_commaList (Q := fun _ => True) (fun _ => .name) y) fun _ _ _ => .pure (.nonlocal (hl rfl))
  · exact h.deleteStatement _
  · exact begins_importStatement _
  · exact begins_importFromStatement _
  · exact h.expressionStatement _

/-- The simple statements of one line. -/
theorem Grammar.Located.simpleLine (h : g.Located P) :
    ReadsWithin P (Script.simpleLine g) fun ss => ∀ s ∈ ss, s.Within (lineLimits P) := by
  intro x
  refine .bind (h.simpleStatement x) fun _ first hfirst y => ?_
  refine .next (.loop (fun ss => ∀ s ∈ ss, s.Within (lineLimits P)) (by simpa using hfirst) fun acc hacc z => ?_)
    fun ss hss z => .peek ?_
  · refine .takeOp rfl (fun _ u => .peek ?_) .done
    split
    · exact .done
    · exact .bind (h.simpleStatement _) fun _ s hs _ => .more (by simpa [hs] using hacc)
  · split
    · exact .advance fun _ => .pure (by simpa using hss)
    · exact .fails fun _ => ⟨_, rfl⟩

/-! ## Compound statements -/

/-- Looking for the end of a block. -/
theorem reads_atBlockEnd : ReadsWithin P atBlockEnd fun _ => True := by
  intro x
  refine .peek ?_
  split <;> exact .any

/-- The statements of a block on lines of its own. -/
theorem Grammar.Located.indented (h : g.Located P) :
    ReadsWithin P (Script.indented g) fun ss => ∀ s ∈ ss, s.Within (lineLimits P) := by
  intro x
  refine .next (h.statement x) fun first hfirst y => ?_
  refine .next (.loop (fun ss => ∀ s ∈ ss, s.Within (lineLimits P)) (by simpa using hfirst) fun acc hacc z => ?_)
    fun ss hss z => .peek ?_
  · refine .next (reads_atBlockEnd z) fun b _ u => ?_
    cases b with
    | true => exact .done
    | false =>
        refine .next (h.statement u) fun ss hss _ => .more fun s hs => ?_
        obtain hs | hs := List.mem_append.1 hs
        · exact hss s (List.mem_reverse.1 hs)
        · exact hacc s hs
  · split
    · exact .advance fun _ => .pure (by simpa using hss)
    · exact .fails fun _ => ⟨_, rfl⟩

/-- The block behind the colon of a header. -/
theorem Grammar.Located.block (h : g.Located P) :
    ReadsWithin P (Script.block g) fun ss => ∀ s ∈ ss, s.Within (lineLimits P) := by
  intro x
  refine .peek ?_
  split
  · refine .advance fun y => .peek ?_
    split
    · exact .advance h.indented
    · exact .fails fun _ => ⟨_, rfl⟩
    · exact .line fun _ _ => .fails fun _ => ⟨_, rfl⟩
  · exact h.simpleLine _

/-- A colon and the block behind it. -/
theorem Grammar.Located.colonBlock (h : g.Located P) :
    ReadsWithin P (Script.colonBlock g) fun ss => ∀ s ∈ ss, s.Within (lineLimits P) :=
  fun _ => .expectOp rfl fun _ => h.block

/-- A block behind a word. -/
theorem Grammar.Located.optionalBlock (h : g.Located P) (w : String) :
    ReadsWithin P (Script.optionalBlock g w) fun ss => ∀ s ∈ ss, s.Within (lineLimits P) :=
  fun _ => .takeWord (fun _ => h.colonBlock) (.pure (by simp))

/-- An alternative behind a condition stands on lines of a kind. -/
structure Alternative.Located (P : Nat → Prop) (a : Nat × Expr × List Stmt) : Prop where
  line : P a.1
  test : a.2.1.Within (lineLimits P)
  body : ∀ s ∈ a.2.2, s.Within (lineLimits P)

/-- The alternatives behind a condition. -/
theorem Grammar.Located.alternatives (h : g.Located P) :
    ReadsWithin P (Script.alternatives g) fun as => ∀ a ∈ as, Alternative.Located P a := by
  intro x
  refine .loop (fun as => ∀ a ∈ as, Alternative.Located P a) (by simp) fun acc hacc y => .line fun l hl => ?_
  refine .takeWord (fun hy z => .bind (h.namedExpression z) fun _ test htest u => ?_) .done
  refine .next (h.colonBlock u) fun body hbody _ => ?_
  exact .more (List.forall_mem_cons.2 ⟨⟨hl hy, htest, hbody⟩, hacc⟩)

/-- A conditional statement. -/
theorem Grammar.Located.ifStatement (h : g.Located P) :
    Begins P (Script.ifStatement g) (Stmt.Within (lineLimits P)) := by
  intro x
  have hfold (elifs : List (Nat × Expr × List Stmt)) (helifs : ∀ a ∈ elifs, Alternative.Located P a)
      (orelse : List Stmt) (horelse : ∀ s ∈ orelse, s.Within (lineLimits P)) :
      ∀ s ∈ elifs.foldl (fun orelse a => [.ifElse a.1 a.2.1 a.2.2 orelse]) orelse,
        s.Within (lineLimits P) := by
    induction elifs generalizing orelse with
    | nil => exact horelse
    | cons a elifs ih =>
        have ha := helifs a List.mem_cons_self
        refine ih (fun a ha => helifs a (List.mem_cons_of_mem _ ha)) _ ?_
        simpa using .ifElse ha.line ha.test ha.body horelse
  refine .line fun l hl => .expectWord fun hx y => .bind (h.namedExpression y) fun _ test htest z => ?_
  refine .next (h.colonBlock z) fun body hbody u => .next (h.alternatives u) fun elifs helifs y => ?_
  refine .next (h.optionalBlock "else" y) fun orelse horelse _ => .pure ?_
  exact .ifElse (hl hx) htest hbody (hfold elifs helifs orelse horelse)

/-- A loop on a condition. -/
theorem Grammar.Located.whileStatement (h : g.Located P) :
    Begins P (Script.whileStatement g) (Stmt.Within (lineLimits P)) := by
  intro x
  refine .line fun l hl => .expectWord fun hx y => .bind (h.namedExpression y) fun _ test htest z => ?_
  refine .next (h.colonBlock z) fun body hbody u => .next (h.optionalBlock "else" u) fun orelse horelse _ => ?_
  exact .pure (.whileLoop (hl hx) htest hbody horelse)

/-- A loop over items. -/
theorem Grammar.Located.forStatement (h : g.Located P) {l : Nat} (hl : P l) (awaited : Bool) :
    Begins P (Script.forStatement g l awaited) (Stmt.Within (lineLimits P)) := by
  intro x
  refine .expectWord fun _ y => .bind (h.loopTargets y) fun _ target htarget z => .expectWord fun _ u => ?_
  refine .bind (h.starExpressions u) fun _ source hsource y => .next (h.colonBlock y) fun body hbody z => ?_
  refine .next (h.optionalBlock "else" z) fun orelse horelse _ => .pure ?_
  exact .forLoop hl htarget hsource hbody horelse

/-- An item of a `with` statement stands on lines of a kind. -/
def WithItem.Located (P : Nat → Prop) (i : Expr × Option Expr) : Prop :=
  i.1.Within (lineLimits P) ∧ ∀ t ∈ i.2, t.Within (lineLimits P)

/-- One item of a `with` statement. -/
theorem Grammar.Located.withItem (h : g.Located P) : ReadsWithin P (Script.withItem g) (WithItem.Located P) := by
  intro x
  refine .bind (h.expression x) fun _ e he y => .takeWord (fun _ z => ?_) (.pure ⟨he, nofun⟩)
  refine .bind (h.starTarget z) fun _ t ht u => .next (reads_checkTarget .assigned t u) fun _ _ y => ?_
  have hitem (y : Lexeme) : ReadsAt P false y (pure (e, some t)) (WithItem.Located P) :=
    .pure ⟨he, fun e he => Option.mem_some.1 he ▸ ht⟩
  refine .atOp (fun _ => .atOp (fun _ => ?_) (.atOp (fun _ => hitem y) (hitem y)))
    (.atOp (fun _ => .atOp (fun _ => hitem y) (hitem y)) (.atOp (fun _ => hitem y) ?_))
  · exact .atOp (fun _ => hitem y) (hitem y)
  · exact .fails fun _ => ⟨_, rfl⟩

/-- The items of a `with` statement within brackets. -/
theorem Grammar.Located.bracketedItems (h : g.Located P) :
    ReadsWithin P (Script.bracketedItems g) fun is => ∀ i ∈ is, WithItem.Located P i := by
  intro x
  refine .expectOp rfl fun _ y => .next (h.withItem y) fun first hfirst z => ?_
  refine .next (.loop (fun is => ∀ i ∈ is, WithItem.Located P i) (by simpa using hfirst) fun acc hacc u => ?_)
    fun is his _ => .expectClosing fun _ => .expectOp rfl fun _ _ => .pure fun i hi => his i (List.mem_reverse.1 hi)
  refine .takeOp rfl (fun _ v => .atOp (fun _ => .done) ?_) .done
  exact .next (h.withItem v) fun i hi _ => .more (List.forall_mem_cons.2 ⟨hi, hacc⟩)

/-- The items of a `with` statement and the colon behind them. -/
theorem Grammar.Located.openItems (h : g.Located P) :
    ReadsWithin P (Script.openItems g) fun is => ∀ i ∈ is, WithItem.Located P i :=
  fun x => .next (reads_commaList h.withItem x) fun _ his _ => .expectOp rfl fun _ _ => .pure his

/-- A block that is entered and left through context values. -/
theorem Grammar.Located.withStatement (h : g.Located P) {l : Nat} (hl : P l) (awaited : Bool) :
    Begins P (Script.withStatement g l awaited) (Stmt.Within (lineLimits P)) := by
  intro x
  have hrest (items : List (Expr × Option Expr)) (hitems : ∀ i ∈ items, WithItem.Located P i) : ReadsWithin P
      (do
        let body ← Script.block g
        return Stmt.withBlock l awaited items body) (Stmt.Within (lineLimits P)) :=
    fun y => .next (h.block y) fun body hbody _ =>
      .pure (.withBlock hl (fun i hi => (hitems i hi).1) (fun i hi => (hitems i hi).2) hbody)
  refine .expectWord fun _ y => .atOp (fun _ => ?_) ?_
  · exact .next (.either (h.bracketedItems y) (h.openItems y)) hrest
  · exact .next (h.openItems y) hrest

/-- A handler behind a block. -/
theorem Grammar.Located.handler (h : g.Located P) (acc : List Handler × Option Bool)
    (hacc : ∀ k ∈ acc.1, k.Within (lineLimits P)) :
    StepsWithin P (fun r : List Handler × Option Bool => ∀ k ∈ r.1, k.Within (lineLimits P))
      (Script.handler g acc) := by
  intro x
  refine .line fun l hl => .takeWord (fun hx y => .takeOrNot rfl fun grouped z _ => ?_) .done
  have hl : P l := hl hx
  have hkind : ReadsAt P false z
      (do
        let kind ← g.expression
        if ← takeWord "as" then
          let id ← name
          let body ← Script.colonBlock g
          return some (.mk l (some kind) (some id) body :: acc.1, some grouped)
        let body ← Script.colonBlock g
        return some (.mk l (some kind) Option.none body :: acc.1, some grouped))
      fun b : Option (List Handler × Option Bool) => ∀ r ∈ b, ∀ k ∈ r.1, k.Within (lineLimits P) := by
    refine .bind (h.expression z) fun _ kind hkind u => ?_
    have hkind : ∀ e ∈ some kind, Expr.Within (lineLimits P) e := fun e he => Option.mem_some.1 he ▸ hkind
    refine .takeWord (fun _ v => .next .name fun id _ w => ?_) ?_
    · refine .next (h.colonBlock w) fun body hbody _ => ?_
      exact .more (List.forall_mem_cons.2 ⟨.mk hl hkind (fun _ _ => trivial) hbody, hacc⟩)
    · refine .next (h.colonBlock u) fun body hbody _ => ?_
      exact .more (List.forall_mem_cons.2 ⟨.mk hl hkind nofun hbody, hacc⟩)
  cases acc.2 == some (!grouped) with
  | true => exact .fails fun _ => ⟨_, rfl⟩
  | false =>
      refine .atOp (fun _ => ?_) hkind
      cases grouped with
      | true => exact hkind
      | false =>
          refine .next (h.colonBlock z) fun body hbody _ => ?_
          exact .more (List.forall_mem_cons.2 ⟨.mk hl nofun nofun hbody, hacc⟩)

/-- A block with handlers. -/
theorem Grammar.Located.tryStatement (h : g.Located P) :
    Begins P (Script.tryStatement g) (Stmt.Within (lineLimits P)) := by
  intro x
  refine .line fun l hl => .expectWord fun hx y => .next (h.colonBlock y) fun body hbody z => ?_
  refine .next (.loop _ (by simp) fun acc hacc => h.handler acc hacc) fun acc hacc u => ?_
  obtain ⟨handlers, grouped⟩ := acc
  dsimp only
  cases handlers.isEmpty with
  | true =>
      refine .expectWord fun _ v => .next (h.colonBlock v) fun final hfinal _ => .pure ?_
      exact .tryBlock (hl hx) hbody (by simp) (by simp) hfinal
  | false =>
      refine .next (h.optionalBlock "else" u) fun orelse horelse v => ?_
      refine .next (h.optionalBlock "finally" v) fun final hfinal _ => .pure ?_
      exact .tryBlock (hl hx) hbody (by simpa using hacc) horelse hfinal

/-- A function definition behind its decorators. -/
theorem Grammar.Located.functionStatement (h : g.Located P) {l : Nat} (hl : x.isIdle = false → P l)
    (awaited : Bool) {decorators : List Expr} (hdecorators : ∀ d ∈ decorators, d.Within (lineLimits P)) :
    ReadsAt P true x (Script.functionStatement g l awaited decorators) (Stmt.Within (lineLimits P)) := by
  refine .expectWord fun hx y => .next .name fun id _ z => .expectOp rfl fun _ u => ?_
  refine .next (h.params ")" true u) fun ps hps _ => .expectClosing fun y => ?_
  refine .takeOp rfl (fun _ z => .bind (h.expression z) fun _ r hr u => ?_) ?_
  · refine .next (h.colonBlock u) fun body hbody _ => .pure ?_
    exact .function (hl hx) hdecorators trivial hps (fun e he => Option.mem_some.1 he ▸ hr) hbody
      fun _ _ => trivial
  · refine .next (h.colonBlock y) fun body hbody _ => .pure ?_
    exact .function (hl hx) hdecorators trivial hps nofun hbody fun _ _ => trivial

/-- A class definition behind its decorators. -/
theorem Grammar.Located.classStatement (h : g.Located P) {decorators : List Expr}
    (hdecorators : ∀ d ∈ decorators, d.Within (lineLimits P)) :
    Begins P (Script.classStatement g decorators) (Stmt.Within (lineLimits P)) := by
  intro x
  refine .line fun l hl => .expectWord fun hx y => .next .name fun id _ z => .line fun start hstart => ?_
  have hrest (args : List Argument) (hargs : ∀ a ∈ args, a.Within (lineLimits P)) : ReadsWithin P
      (do
        let body ← Script.colonBlock g
        return Stmt.classDef l decorators id args body) (Stmt.Within (lineLimits P)) :=
    fun u => .next (h.colonBlock u) fun body hbody _ =>
      .pure (.classDef (hl hx) hdecorators trivial hargs hbody)
  refine .takeOp rfl (fun hz u => ?_) (hrest [] (by simp) z)
  exact .next (h.arguments (hstart hz) u) hrest

/-- The decorators in front of a definition. -/
theorem Grammar.Located.decoratorLines (h : g.Located P) :
    ReadsWithin P (Script.decoratorLines g) fun ds => ∀ d ∈ ds, d.Within (lineLimits P) := by
  intro x
  refine .next (.loop (fun ds => ∀ d ∈ ds, d.Within (lineLimits P)) (by simp) fun acc hacc y => ?_)
    fun ds hds _ => .pure (by simpa using hds)
  refine .takeOp rfl (fun _ z => .bind (h.namedExpression z) fun _ e he u => .peek ?_) .done
  split
  · exact .advance fun _ => .more (by simpa [he] using hacc)
  · exact .fails fun _ => ⟨_, rfl⟩

/-- A definition behind its decorators. -/
theorem Grammar.Located.decorated (h : g.Located P) :
    ReadsWithin P (Script.decorated g) (Stmt.Within (lineLimits P)) := by
  intro x
  refine .next (h.decoratorLines x) fun ds hds y => .line fun l hl => .atWord (fun _ => ?_) (.takeWord ?_ ?_)
  · exact (h.classStatement hds y).reads
  · exact fun hy z => (h.functionStatement (fun _ => hl hy) true hds).reads
  · exact (h.functionStatement hl false hds).reads

/-- What follows the word `async`. -/
theorem Grammar.Located.asyncStatement (h : g.Located P) :
    Begins P (Script.asyncStatement g) (Stmt.Within (lineLimits P)) := by
  intro x
  refine .line fun l hl => .expectWord fun hx y => .peek ?_
  split
  · exact (h.functionStatement (fun _ => hl hx) true (by simp)).reads
  · exact (h.forStatement (hl hx) true _).reads
  · exact (h.withStatement (hl hx) true _).reads
  · exact .fails fun _ => ⟨_, rfl⟩

/-- One case of a `match` statement. -/
theorem Grammar.Located.matchCase (h : g.Located P) :
    ReadsWithin P (Script.matchCase g) (Case.Within (lineLimits P)) := by
  intro x
  have hrest : ReadsWithin P
      (do
        let p ← Script.openPattern g
        let guard ← behindWord "if" (Script.namedExpression g)
        let body ← Script.colonBlock g
        return Case.mk p guard body) (Case.Within (lineLimits P)) := by
    intro y
    refine .bind (h.openPattern y) fun _ p hp z => .next (h.namedExpression.behindWord "if" z) fun c hc u => ?_
    exact .next (h.colonBlock u) fun body hbody _ => .pure (.mk hp hc hbody)
  refine .peek ?_
  split
  · exact .advance hrest
  · exact .fails fun _ => ⟨_, rfl⟩

/-- Looking for a case. -/
theorem reads_atCase : ReadsWithin P atCase fun _ => True := by
  intro x
  refine .peek ?_
  split <;> exact .any

/-- The cases of a `match` statement behind its subject. -/
theorem Grammar.Located.matchCases (h : g.Located P) {l : Nat} (hl : P l) {subject : Expr}
    (hsubject : subject.Within (lineLimits P)) : ReadsWithin P
    (do
      expectOp ":"
      match ← peek with
      | .newline => advance
      | _ => unexpected
      match ← peek with
      | .indent => advance
      | _ => unexpected
      let c ← Script.matchCase g
      let cs ← loop (fun acc => do
        if ← atCase then
          let c ← Script.matchCase g
          return some (c :: acc)
        return Option.none) [c]
      match ← peek with
      | .dedent =>
        advance
        return Stmt.matchCases l subject cs.reverse
      | _ => unexpected) (Stmt.Within (lineLimits P)) := by
  intro x
  refine .expectOp rfl fun _ y => .peek ?_
  split
  · refine .advance fun z => .peek ?_
    split
    · refine .advance fun u => .next (h.matchCase u) fun c hc v => ?_
      refine .next (.loop (fun cs => ∀ c ∈ cs, c.Within (lineLimits P)) (by simpa using hc) fun acc hacc w => ?_)
        fun cs hcs _ => .peek ?_
      · refine .next (reads_atCase w) fun b _ y => ?_
        cases b with
        | true => exact .next (h.matchCase y) fun c hc _ => .more (by simpa [hc] using hacc)
        | false => exact .done
      · split
        · exact .advance fun _ => .pure (.matchCases hl hsubject (by simpa using hcs))
        · exact .fails fun _ => ⟨_, rfl⟩
    · exact .fails fun _ => ⟨_, rfl⟩
  · exact .fails fun _ => ⟨_, rfl⟩

/-- A `match` statement. -/
theorem Grammar.Located.matchStatement (h : g.Located P) (hx : x.isIdle = false) :
    ReadsAt P false x (Script.matchStatement g) (Stmt.Within (lineLimits P)) := by
  refine .line fun l hl => .advance fun y => .line fun subjectLine hsubject => ?_
  refine .bind (h.starNamed y) fun hy first hfirst z => .atOp (fun _ => ?_) ?_
  · refine .next (h.starNamed.moreItems hfirst z) fun items hitems => ?_
    exact h.matchCases (hl hx) (.display (hsubject hy) hitems)
  · cases first with
    | star => exact .fails fun _ => ⟨_, rfl⟩
    | _ => exact h.matchCases (hl hx) hfirst z

/-- A statement. -/
theorem Grammar.Located.statementOf (h : g.Located P) :
    ReadsWithin P (Script.statement g) fun ss => ∀ s ∈ ss, s.Within (lineLimits P) := by
  intro x
  have hone {y : Lexeme} {begins : Bool} {p : Parse Stmt} (hp : ReadsAt P begins y p (Stmt.Within (lineLimits P))) :
      ReadsAt P false y (do return [← p]) fun ss => ∀ s ∈ ss, s.Within (lineLimits P) :=
    .next hp.reads fun s hs _ => .pure (by simpa using hs)
  refine .line fun l hl => .peek ?_
  split
  · exact hone (h.ifStatement _)
  · exact hone (h.whileStatement _)
  · exact hone (h.forStatement (hl rfl) false _)
  · exact hone (h.withStatement (hl rfl) false _)
  · exact hone (h.tryStatement _)
  · exact hone (h.functionStatement hl false (by simp))
  · exact hone (h.classStatement (by simp) _)
  · exact hone (h.asyncStatement _)
  · exact hone (h.decorated _)
  · -- the word may be a name as well
    exact .either (hone (h.matchStatement rfl)) (h.simpleLine _)
  · exact h.simpleLine _

/-! ## Whole scripts -/

/-- The readers of every level. -/
theorem Grammar.located_level (n : Nat) : (Grammar.level n).Located P := by
  induction n with
  | zero =>
      have hfails {α : Type} {Q : α → Prop} {begins : Bool} {y : Lexeme} :
          ReadsAt P begins y (Parse.unexpected : Parse α) Q := .fails fun _ => ⟨_, rfl⟩
      exact ⟨fun _ => hfails, fun _ => hfails, fun _ => hfails, fun _ => hfails, fun _ => hfails, fun _ => hfails⟩
  | succ n ih =>
      exact ⟨ih.expressionOf, ih.disjunctionOf, ih.bitOrOf, ih.factorOf, ih.patternOf, ih.statementOf⟩

/-- The statements of a whole script. -/
theorem Grammar.Located.wholeScript (h : g.Located P) :
    ReadsWithin P (Script.wholeScript g) fun ss => ∀ s ∈ ss, s.Within (lineLimits P) := by
  intro x
  refine .next (.loop (fun ss => ∀ s ∈ ss, s.Within (lineLimits P)) (by simp) fun acc hacc y => .peek ?_)
    fun ss hss y => .peek ?_
  · split
    · exact .done
    · refine .next (h.statement _) fun ss hss _ => .more fun s hs => ?_
      obtain hs | hs := List.mem_append.1 hs
      · exact hss s (List.mem_reverse.1 hs)
      · exact hacc s hs
  · split
    · exact .pure (by simpa using hss)
    · exact .fails fun _ => ⟨_, rfl⟩

end

/-- Every node of the statements of a located script starts on a line of the kind. -/
theorem within_of_parse {P : Nat → Prop} {source : Text} {ss : List Stmt} (h : parse source = .ok ss)
    (hsource : Located P 1 (unifyBreaks source)) : ∀ s ∈ ss, s.Within (lineLimits P) := by
  unfold parse at h
  dsimp only at h
  split at h
  · next heq =>
      cases h
      exact ((Grammar.located_level _).wholeScript _ _ (within_lex hsource) rfl _ _ heq).2.2
  · cases h

end Stencil.Script
