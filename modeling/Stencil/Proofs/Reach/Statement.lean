import Mathlib
import Stencil.Proofs.Reach.Assign

/-!
# Statements within limits

A step takes the topmost task and leads to a signal and tasks within the limits again, and so does a run,
step after step. By induction on the number of steps that a machine may take all its operations are within
the limits: whatever a run does, it cannot tell machines apart that are alike.
-/

namespace Stencil.Script

open Std.Do
open scoped Pairs

set_option mvcgen.warning false

variable {L : Limits} {W : Likeness L} {ops : Ops} (ho : ops.Within W) {env : Env} (henv : env.Within L)
  {line : Nat} (hl : L.line line) {v : Value} {e : Expr} {rest : List Task}
  (hrest : ∀ t ∈ rest, t.Within L)

namespace Statement

/-- What a step leads to is within limits. -/
@[simp, grind =] def Move.Within (L : Limits) : Move → Prop
  | .next signal tasks => signal.Within L ∧ ∀ t ∈ tasks, t.Within L
  | .yield v tasks => v.Within L ∧ ∀ t ∈ tasks, t.Within L

@[spec] theorem proceed_spec (h : ∀ t ∈ rest, t.Within L) :
    ⦃W.inside⦄ proceed rest ⦃W.gives (Move.Within L)⦄ := by
  mvcgen [proceed]

/-- A step may lead elsewhere where it stops short. -/
@[spec] theorem tryCatch_move_spec {x : Run Move} {handler : Stop → Run Move}
    (hx : ⦃W.inside⦄ x ⦃W.gives (Move.Within L)⦄)
    (hh : ∀ e, e.Within L → ⦃W.inside⦄ handler e ⦃W.gives (Move.Within L)⦄) :
    ⦃W.inside⦄ (MonadExceptOf.tryCatch x handler) ⦃W.gives (Move.Within L)⦄ :=
  W.gives_tryCatch hx hh

/-- A value may be given elsewhere where a computation stops short. -/
@[spec] theorem tryCatch_value_spec {x : Run Value} {handler : Stop → Run Value}
    (hx : ⦃W.inside⦄ x ⦃W.gives (Value.Within L)⦄)
    (hh : ∀ e, e.Within L → ⦃W.inside⦄ handler e ⦃W.gives (Value.Within L)⦄) :
    ⦃W.inside⦄ (MonadExceptOf.tryCatch x handler) ⦃W.gives (Value.Within L)⦄ :=
  W.gives_tryCatch hx hh

/-! ## Exceptions -/

@[spec] theorem exceptionOf_spec (ho : ops.Within W) {complaint : String} (h : v.Within L) :
    ⦃W.inside⦄ exceptionOf ops complaint v ⦃W.gives L.address⦄ := by
  mvcgen [exceptionOf] with grind

@[spec] theorem catches_spec {a : Address} {n : Nat} (ha : L.address a) (h : v.Within L) :
    ⦃W.inside⦄ catches line a n v ⦃W.stays⦄ := by
  induction n generalizing v with
  | zero => mvcgen [catches]
  | succ n ih =>
    have hany (vs : List Value) (hvs : Value.AllWithin L vs) :
        ⦃W.inside⦄ catches.any line a n vs ⦃W.stays⦄ := by
      induction vs with
      | nil => mvcgen [catches.any]
      | cons v vs ihvs =>
        have ihvs := ihvs hvs.2
        mvcgen [catches.any, ih, ihvs] with grind
    unfold catches
    mvcgen [hany] with grind

@[spec] theorem beginHandling_spec {a : Address} (ha : L.address a) :
    ⦃W.inside⦄ beginHandling a ⦃W.stays⦄ := by
  refine W.stays_of_run fun m n hw => ?_
  obtain ⟨heq, hes⟩ := W.handling hw
  refine ⟨rfl, ?_⟩
  show W.alike { m with handling := a :: m.handling } { n with handling := a :: n.handling }
  rw [← heq]
  exact W.handle hw (by grind)

@[spec] theorem endHandling_spec : ⦃W.inside⦄ endHandling ⦃W.stays⦄ := by
  refine W.stays_of_run fun m n hw => ?_
  obtain ⟨heq, hes⟩ := W.handling hw
  refine ⟨rfl, ?_⟩
  show W.alike { m with handling := m.handling.drop 1 } { n with handling := n.handling.drop 1 }
  rw [← heq]
  exact W.handle hw fun a ha => hes a (List.mem_of_mem_drop ha)

@[spec] theorem restore_spec {es : List Address} (h : ∀ e ∈ es, L.address e) :
    ⦃W.inside⦄ (modify ({ · with handling := es }) : Run Unit) ⦃W.stays⦄ :=
  W.stays_of_run fun _ _ hw => ⟨rfl, W.handle hw h⟩

@[spec] theorem leaveHandler_spec (henv : env.Within L) {id : Option String} (hid : ∀ n ∈ id, L.name n) :
    ⦃W.inside⦄ leaveHandler env id ⦃W.stays⦄ := by
  mvcgen [leaveHandler] with grind

section

include ho henv

/-- Raises the exception that is being handled once more. -/
def again : List Address → Run Move
  | e :: _ => throw (.raised e)
  | [] => Run.failWith .runtimeError "No active exception to reraise"

@[spec] theorem raise_spec (hl : L.line line) {value cause : Option Expr} (hv : ∀ e ∈ value, e.Within L)
    (hc : ∀ e ∈ cause, e.Within L) :
    ⦃W.inside⦄ raise ops env line value cause ⦃W.gives (Move.Within L)⦄ := by
  cases value with
  | none =>
    refine W.gives_bind (W.gives_of_stays (Run.atLine_spec hl)) fun _ _ => ?_
    refine W.gives_get (g := Machine.handling) (R := fun es => ∀ e ∈ es, L.address e) (f := again)
      W.handling fun es hes => ?_
    (mvcgen [again] with grind)
  | some e =>
    unfold raise
    mvcgen with grind

/-- The name and the body of a handler, if one was found, are within limits. -/
def FoundWithin (L : Limits) (found : Option (Option String × List Stmt)) : Prop :=
  ∀ p, found = some p → (∀ n ∈ p.1, L.name n) ∧ ∀ s ∈ p.2, s.Within L

@[spec] theorem handlerFor?_spec {a : Address} {handlers : List Handler} (ha : L.address a)
    (h : ∀ h ∈ handlers, h.Within L) :
    ⦃W.inside⦄ handlerFor? ops env a handlers ⦃W.gives (FoundWithin L)⦄ := by
  induction handlers with
  | nil => (mvcgen [handlerFor?]; grind [FoundWithin])
  | cons h handlers ih =>
    obtain ⟨hh, hhandlers⟩ := List.forall_mem_cons.1 h
    have ih := ih hhandlers
    cases hh
    unfold handlerFor?
    mvcgen [ih] with grind [FoundWithin]

omit ho henv in
/-- A handler may be looked for elsewhere where looking for it stops short. -/
@[spec] theorem tryCatch_found_spec {x : Run (Option (Option String × List Stmt))}
    {handler : Stop → Run (Option (Option String × List Stmt))} (hx : ⦃W.inside⦄ x ⦃W.gives (FoundWithin L)⦄)
    (hh : ∀ e, e.Within L → ⦃W.inside⦄ handler e ⦃W.gives (FoundWithin L)⦄) :
    ⦃W.inside⦄ (MonadExceptOf.tryCatch x handler) ⦃W.gives (FoundWithin L)⦄ :=
  W.gives_tryCatch hx hh

/-! ## Contexts of their own -/

@[spec] theorem enter_spec (hl : L.line line) {items : List (Expr × Option Expr)} {body : List Stmt}
    (hitems : ∀ i ∈ items, i.1.Within L ∧ ∀ t ∈ i.2, t.Within L) (hbody : ∀ s ∈ body, s.Within L)
    (hrest : ∀ t ∈ rest, t.Within L) :
    ⦃W.inside⦄ enter ops env line items body rest ⦃W.gives (Move.Within L)⦄ := by
  cases items with
  | nil => (unfold enter; mvcgen with grind)
  | cons i more =>
    obtain ⟨hi, hmore⟩ := List.forall_mem_cons.1 hitems
    unfold enter
    mvcgen with grind

omit henv in
@[spec] theorem leave_spec (hl : L.line line) {manager exit : Value} {signal : Signal}
    (hm : manager.Within L) (hx : exit.Within L) (hs : signal.Within L) (hrest : ∀ t ∈ rest, t.Within L) :
    ⦃W.inside⦄ leave ops line manager exit signal rest ⦃W.gives (Move.Within L)⦄ := by
  cases signal with
  | raised e =>
    have hleave (es : List Address) (hes : ∀ e ∈ es, L.address e) :
        ⦃W.inside⦄ (do
          beginHandling e
          let restore : Run Unit := modify ({ · with handling := es })
          Run.atLine line
          let r ← tryCatch (ops.call exit [manager, ← Run.exceptionClass e, .ref e, .none] [])
            fun stop => do
              restore
              throw stop
          restore
          if ← ops.truthy r then proceed rest else return .next (.raised e) rest : Run Move)
        ⦃W.gives (Move.Within L)⦄ := by
      (mvcgen with grind)
    exact W.gives_get (g := Machine.handling) W.handling hleave
  | _ => (unfold leave; mvcgen with grind)

/-! ## Values given and sent -/

@[spec] theorem receive_spec {receiver : Receiver} (hreceiver : receiver.Within L) (h : v.Within L)
    (hrest : ∀ t ∈ rest, t.Within L) :
    ⦃W.inside⦄ receive ops env receiver v rest ⦃W.gives (Move.Within L)⦄ := by
  mvcgen [receive] with grind

@[spec] theorem evaluate_spec {receiver : Receiver} (he : e.Within L) (hreceiver : receiver.Within L)
    (hrest : ∀ t ∈ rest, t.Within L) :
    ⦃W.inside⦄ evaluate ops env e receiver rest ⦃W.gives (Move.Within L)⦄ := by
  have he' := he
  cases he <;> (unfold evaluate; mvcgen with grind)

/-! ## Definitions -/

omit henv in
@[spec] theorem decorated_spec {ds : List (Nat × Value)} (hds : ∀ d ∈ ds, L.line d.1 ∧ d.2.Within L)
    (h : v.Within L) : ⦃W.inside⦄ decorated ops ds v ⦃W.gives (Value.Within L)⦄ := by
  refine Run.gives_foldlM h fun v hv d hd => ?_
  obtain ⟨hline, hd⟩ := hds d (List.mem_reverse.1 hd)
  mvcgen with grind

@[spec] theorem decoratorValues_spec {es : List Expr} (h : ∀ e ∈ es, e.Within L) :
    ⦃W.inside⦄ decoratorValues ops env es ⦃W.gives fun ds => ∀ d ∈ ds, L.line d.1 ∧ d.2.Within L⦄ := by
  refine Run.gives_mapM fun e he => ?_
  mvcgen with grind

@[spec] theorem defineFunction_spec (hl : L.line line) {decorators : List Expr} {id : String} {ps : List Param}
    {result : Option Expr} {body : List Stmt} (hds : ∀ e ∈ decorators, e.Within L) (hid : L.name id)
    (hps : ∀ p ∈ ps, p.Within L) (hresult : ∀ e ∈ result, e.Within L) (hbody : ∀ s ∈ body, s.Within L)
    (hnames : ∀ id ∈ Scope.variablesOf ps body, L.binds id) :
    ⦃W.inside⦄ defineFunction ops env line decorators id ps result body ⦃W.stays⦄ := by
  have hstart : L.line ((decorators.head?.map Expr.line).getD line) := by
    cases decorators with
    | nil => exact hl
    | cons d _ => exact (hds d List.mem_cons_self).line
  have hhint (p : Param) (hp : p ∈ ps) : ∀ e ∈ p.hint, e.Within L := by
    have := hps p hp
    cases this
    assumption
  have hhints : ∀ e ∈ ps.filterMap Param.hint ++ result.toList, e.Within L := by
    simp only [List.forall_mem_append, List.forall_mem_filterMap, Option.mem_toList]
    exact ⟨hhint, hresult⟩
  mvcgen [defineFunction] with grind

@[spec] theorem defineClass_spec (hl : L.line line) {decorators : List Expr} {id : String}
    {args : List Argument} {body : List Stmt} (hds : ∀ e ∈ decorators, e.Within L) (hid : L.name id)
    (hargs : ∀ a ∈ args, a.Within L) (hbody : ∀ s ∈ body, s.Within L) :
    ⦃W.inside⦄ defineClass ops env line decorators id args body ⦃W.stays⦄ := by
  mvcgen [defineClass] with grind

omit ho in
@[spec] theorem importNames_spec (hl : L.line line) {path : Option String} {names : Option (List Alias)}
    (hnames : ∀ as ∈ names, ∀ a ∈ as, L.name (a.name.getD a.path)) :
    ⦃W.inside⦄ importNames env line path names ⦃W.stays⦄ := by
  mvcgen [importNames] with grind

@[spec] theorem declared_spec (he : e.Within L) : ⦃W.inside⦄ declared ops env e ⦃W.stays⦄ := by
  cases he <;> (unfold declared; mvcgen with grind)

@[spec] theorem declaredHint_spec {hint : Expr} {bare : Bool} (hhint : hint.Within L) :
    ⦃W.inside⦄ declaredHint ops env e hint bare ⦃W.stays⦄ := by
  mvcgen [declaredHint] with grind

/-! ## Statements -/

@[spec] theorem selectCase_spec {cases : List Case} (h : v.Within L) (hcases : ∀ c ∈ cases, c.Within L)
    (hrest : ∀ t ∈ rest, t.Within L) :
    ⦃W.inside⦄ selectCase ops env v rest cases ⦃W.gives (Move.Within L)⦄ := by
  induction cases with
  | nil => (mvcgen [selectCase] with grind)
  | cons c more ih =>
    obtain ⟨hc, hmore⟩ := List.forall_mem_cons.1 hcases
    have ih := ih hmore
    cases hc
    unfold selectCase
    mvcgen [ih] with grind

@[spec] theorem execute_spec {s : Stmt} (hs : s.Within L) (hrest : ∀ t ∈ rest, t.Within L) :
    ⦃W.inside⦄ execute ops env s rest ⦃W.gives (Move.Within L)⦄ := by
  cases hs <;> (unfold execute; mvcgen with grind)

/-! ## Steps -/

@[spec] theorem perform_spec {sent : Value} {t : Task} (hsent : sent.Within L) (ht : t.Within L)
    (hrest : ∀ t ∈ rest, t.Within L) :
    ⦃W.inside⦄ perform ops env sent t rest ⦃W.gives (Move.Within L)⦄ := by
  cases t with
  | withItems l items body =>
    obtain ⟨hl, hitems, hbody⟩ := ht
    exact enter_spec ho henv hl hitems hbody hrest
  | run body =>
    obtain _ | ⟨s, more⟩ := body
    · (unfold perform; mvcgen with grind)
    · have hs : s.Within L := ht s List.mem_cons_self
      have hmore : ∀ s ∈ more, s.Within L := fun s h => ht s (List.mem_cons_of_mem _ h)
      (unfold perform; mvcgen with grind)
  | _ => (unfold perform; mvcgen with grind)

@[spec] theorem unwind_spec {signal : Signal} {t : Task} (hsignal : signal.Within L) (ht : t.Within L)
    (hrest : ∀ t ∈ rest, t.Within L) :
    ⦃W.inside⦄ unwind ops env signal t rest ⦃W.gives (Move.Within L)⦄ := by
  cases t <;> (unfold unwind; mvcgen with grind [FoundWithin])

/-- What one step leads to is within limits. -/
@[spec] theorem step_spec {signal : Signal} {t : Task} (hsignal : signal.Within L) (ht : t.Within L)
    (hrest : ∀ t ∈ rest, t.Within L) :
    ⦃W.inside⦄ step ops env signal t rest ⦃W.gives (Move.Within L)⦄ := by
  mvcgen [step] with grind

/-- What a run leaves off with is within limits, by induction on the steps that it takes. -/
@[spec] theorem run_spec {n : Nat} {signal : Signal} {tasks : List Task} (hsignal : signal.Within L)
    (htasks : ∀ t ∈ tasks, t.Within L) :
    ⦃W.inside⦄ run ops env n signal tasks ⦃W.gives (Outcome.Within L)⦄ := by
  induction n generalizing signal tasks with
  | zero => mvcgen [run]
  | succ n ih =>
    cases tasks with
    | nil => (unfold run; mvcgen with grind)
    | cons t rest =>
      obtain ⟨ht, hrest⟩ := List.forall_mem_cons.1 htasks
      unfold run
      mvcgen [ih] with grind

end

end Statement

/-! ## The operations of the interpreter -/

/-- The operations of the interpreter keep machines alike, however many steps they may take, if those calls
do that are taken as a whole. -/
theorem within_operations
    (hwraps : ∀ n, (∀ k ≤ n, (operations k).Within W) → Eval.Wraps W (operations n)) (n : Nat) :
    (operations n).Within W := by
  have hexhausted {α : Type} {P : α → Prop} : ⦃W.inside⦄ (throw .exhausted : Run α) ⦃W.gives P⦄ :=
    W.gives_of_run fun _ _ hw => ⟨rfl, trivial, hw⟩
  have hexhausted' {α : Type} : ⦃W.inside⦄ (throw .exhausted : Run α) ⦃W.stays⦄ :=
    W.stays_of_gives (hexhausted (P := fun _ => True))
  induction n using Nat.strong_induction_on with
  | _ n ih =>
    cases n with
    | zero => constructor <;> intros <;> first | exact hexhausted | exact hexhausted'
    | succ n =>
      have ho := ih n (Nat.lt_succ_self n)
      have hw := hwraps n fun k hk => ih k (Nat.lt_succ_of_le hk)
      exact {
        eval := fun henv he => Eval.expr_spec ho henv hw he
        call := fun hf hargs hnamed => Call.call_spec ho hf hargs hnamed
        resume := fun henv hsignal htasks => Statement.run_spec ho henv hsignal htasks
        advance := fun hv hsent => Iterate.advance_spec ho hv hsent
        member := fun hv => Member.get_spec ho hv
        repr := fun hv => Show.repr_spec ho hv
        str := fun hv => Show.str_spec ho hv
        equal := fun ha hb => Compare.equal_spec ho ha hb
        order := fun ha hb => Compare.order_spec ho ha hb
        format := fun hv => Fields.write_spec ho hv }

end Stencil.Script
