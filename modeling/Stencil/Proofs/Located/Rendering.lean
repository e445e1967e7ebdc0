import Stencil.Proofs.Located.Generated
import Stencil.Proofs.Located.Machine
import Stencil.Proofs.Located.Statements

/-!
# The lines of render errors

The error with which the code of a template fails gives a line of the segment whose code was being run where
the exception was raised first: it lies between the opening and the closing bracket of a directive, or it is
the line on which a literal starts (`failed_on_segment`). All code on the machine has to be that of the
template, which it stays through every rendering (`confined_renderBy`).
-/

namespace Stencil

open Script Stencil.Tree
open Std.Do
open scoped Pairs

section

variable {P : Nat → Prop} {m m' : Machine} {log : Array LogEntry} {n : Nat} {v : Value} {body : List Stmt}
  {p : Program} {t : Template}

/-! ## Confined machines -/

/-- A computation that gives a value has gone on behind its first step. -/
theorem Script.Run.exists_of_bind {α β : Type} {x : Run α} {f : α → Run β} {b : β}
    (h : (x >>= f).run m = .ok b m') : ∃ a m₁, x.run m = .ok a m₁ ∧ (f a).run m₁ = .ok b m' := by
  rw [EStateM.run_bind] at h
  cases hx : x.run m with
  | ok a m₁ =>
    rw [hx] at h
    exact ⟨a, m₁, rfl, h⟩
  | error e m₁ =>
    rw [hx] at h
    cases h

/-- Making the context that a template renders a value with. -/
theorem confines_newContext (es : Entries) : Confines P (t.newContext (operations n) es) :=
  .new _ es _

/-- Making the context for a value. -/
theorem confines_contextOf (v : Value) : Confines P (t.contextOf (operations n) v) := by
  refine .bind .isContext fun b => ?_
  cases b with
  | true => exact .pure
  | false =>
    cases v with
    | ref a => exact .bind (.of_gives (Run.entries_spec trivial)) fun es => confines_newContext es
    | _ => exact confines_newContext []

/-- The machine on which the statements of a template start. -/
theorem confined_of_start {m₀ m₁ : Machine} (hm : m.Confined P)
    (h : (t.start (operations n) v).run m = .ok m₀ m₁) : m₀.Confined P := by
  obtain ⟨c, m', hcontext, h⟩ := Run.exists_of_bind h
  obtain ⟨space, m'', hspace, h⟩ := Run.exists_of_bind h
  cases h
  have hm₁ := (Confines.namespaceOf c).ok ((confines_contextOf v).ok hm hcontext) hspace
  exact (hm₁.push (o := .dict space) space.within_lines).sameHeap rfl (.inl rfl)

/-- The error for an exception that nothing deals with. -/
theorem confines_uncaught (e : Address) : Confines P (Render.uncaught (operations n) e) :=
  .of_stays (Render.uncaught_spec (confined_operations n) trivial)

/-- Running statements on lines of a kind with a context. -/
theorem confines_runBody (hbody : ∀ s ∈ body, s.Within (lineLimits P)) (c : Value) :
    Confines P (Render.runBody (operations n) p true body c) := by
  have hops : (operations n).Within (lineLikeness P True) := confined_operations n
  have hstart (a : Address) : Confines P (modify fun m =>
      { m with globals := a, line := 0, depth := 0, handling := [] } : Run PUnit) := by
    rintro m m' ⟨rfl, hm, -⟩
    exact ⟨rfl, trivial, rfl, hm.sameHeap rfl (.inl rfl), .inl trivial⟩
  have hrest : Confines P (endedBy (operations n) body >>= concluded (operations n) p) :=
    .bind (.of_gives (Render.endedBy_spec hops hbody)) fun e =>
      .of_stays (Render.concluded_spec hops trivial fun _ _ => trivial)
  refine .bind (.namespaceOf c) fun es => .bind (.of_gives (Run.newDict_spec es.within_lines)) fun space => ?_
  cases space with
  | ref a => exact .bind (hstart a) fun _ => hrest
  | _ => exact hrest

/-- A rendering leaves confined machines confined. -/
def Rendering.Confines (P : Nat → Prop) {α : Type} (r : Rendering α) : Prop :=
  ∀ m log, m.Confined P → (r.run.run (m, log)).2.1.Confined P

namespace Rendering.Confines

variable {α β : Type} {r : Rendering α} {f : α → Rendering β} {x : Run α}

theorem pure {a : α} : Confines P (Pure.pure a : Rendering α) := fun _ _ hm => hm

theorem throw {e : RenderError} : Confines P (MonadExcept.throw e : Rendering α) := fun _ _ hm => hm

theorem bind (hr : Confines P r) (hf : ∀ a, Confines P (f a)) : Confines P (r >>= f) := by
  intro m log hm
  have hr := hr m log hm
  rw [ExceptT.run_bind, StateT.run_bind]
  cases hrun : r.run.run (m, log) with
  | mk res after =>
    rw [hrun] at hr
    cases res with
    | ok a => exact hf a after.1 after.2 hr
    | error e => exact hr

theorem ofRunBy (hx : Script.Confines P x) : Confines P (Rendering.ofRunBy (operations n) x) := by
  intro m log hm
  rw [run_ofRunBy_eq]
  cases hrun : x.run m with
  | ok a m' => exact hx.ok hm hrun
  | error e m' =>
    have hm' := hx.error hm hrun
    cases e with
    | exhausted => exact hm'
    | raised e =>
      dsimp only
      cases huncaught : (Render.uncaught (operations n) e).run m' with
      | ok => exact (confines_uncaught e).ok hm' huncaught
      | error => exact (confines_uncaught e).error hm' huncaught

theorem say (entry : LogEntry) : Confines P (Rendering.say entry) := fun _ _ hm => hm

end Rendering.Confines

/-- Rendering leaves machines confined to the lines of a template, whatever it gives. -/
theorem confined_renderBy (hbody : ∀ body, t.program.body = some body → ∀ s ∈ body, s.Within (lineLimits P))
    (hm : m.Confined P) (v : Value) (n : Nat) (log : Array LogEntry) :
    ((t.renderBy (operations n) v).run.run (m, log)).2.1.Confined P := by
  have hrun (c : Value) : Rendering.Confines P (t.program.runBy (operations n) true c) := by
    rw [Program.runBy]
    cases hstmts : t.program.body with
    | none => exact .throw
    | some body =>
      refine .bind (.ofRunBy (confines_runBody (hbody body hstmts) c)) fun r => ?_
      refine .bind (.say _) fun _ => ?_
      split
      · exact .pure
      · exact .throw
  have hnew (es : Entries) : Rendering.Confines P (do
      let c ← Rendering.ofRunBy (operations n) (t.newContext (operations n) es)
      t.program.runBy (operations n) true c) :=
    .bind (.ofRunBy (confines_newContext es)) hrun
  have hrefuse : Rendering.Confines P ((do
      throw (.notBindings (← Rendering.ofRunBy (operations n) (Run.kindName v))) : Rendering Value) >>=
        t.program.runBy (operations n) true) :=
    .bind (.bind (.ofRunBy (.of_stays (Run.kindName_spec v.within_lines))) fun _ => .throw) hrun
  suffices h : Rendering.Confines P (t.renderBy (operations n) v) from h m log hm
  unfold Template.renderBy
  cases v with
  | none => exact hnew []
  | ref a =>
    refine .bind (.ofRunBy .isContext) fun b => ?_
    cases b with
    | true => exact .bind .pure hrun
    | false =>
      refine .bind (.ofRunBy (.of_gives (Run.object?_spec trivial))) fun o => ?_
      split
      · exact hnew _
      · exact hrefuse
  | _ => exact hrefuse

/-! ## Failures -/

/-- Whether an error is that of the code of a template. -/
def RenderError.IsFailure : RenderError → Prop
  | .failed .. => True
  | _ => False

/-- The error for an exception that nothing deals with is not that of the code of a template. -/
theorem not_isFailure_uncaught {e : Address} {err : RenderError}
    (h : (Render.uncaught (operations n) e).run m = .ok err m') : ¬ err.IsFailure := by
  obtain ⟨cls, m₁, -, h⟩ := Run.exists_of_bind h
  obtain ⟨kind, m₂, -, h⟩ := Run.exists_of_bind h
  obtain ⟨text, m₃, -, h⟩ := Run.exists_of_bind h
  obtain ⟨ends, m₄, -, h⟩ := Run.exists_of_bind h
  cases ends with
  | true =>
    obtain ⟨code, m₅, -, h⟩ := Run.exists_of_bind h
    cases h
    exact id
  | false =>
    cases h
    exact id

/-- A rendering that fails with an error of the code of a template has gone on behind a computation of the
machine. -/
theorem exists_of_isFailure {α β : Type} {x : Run α} {f : α → Rendering β} {err : RenderError}
    {after : Machine × Array LogEntry} (herr : err.IsFailure)
    (h : (Rendering.ofRunBy (operations n) x >>= f).run.run (m, log) = (.error err, after)) :
    ∃ a m', x.run m = .ok a m' ∧ (f a).run.run (m', log) = (.error err, after) := by
  cases hx : x.run m with
  | ok a m' => exact ⟨a, m', rfl, (run_ofRunBy_bind hx f).symm.trans h⟩
  | error stop m' =>
    rw [ExceptT.run_bind, StateT.run_bind, run_ofRunBy_eq, hx] at h
    cases stop with
    | exhausted =>
      cases h
      exact herr.elim
    | raised e =>
      dsimp only at h
      cases huncaught : (Render.uncaught (operations n) e).run m' with
      | ok err' m'' =>
        rw [huncaught] at h
        cases h
        exact absurd herr (not_isFailure_uncaught huncaught)
      | error stop' m'' =>
        rw [huncaught] at h
        cases h
        exact herr.elim

/-- Whether an exception may be held back can be told without changing the machine. -/
theorem exists_run_isException (m : Machine) (e : Address) (kind : ExceptionKind) :
    ∃ b, (Run.isException e kind).run m = .ok b m := by
  have hclass : ∃ cls, (Run.exceptionClass e).run m = .ok cls m := by
    rw [Run.exceptionClass, Run.classOf, EStateM.run_bind, Run.run_object?]
    cases m.object? e with
    | none => exact ⟨_, rfl⟩
    | some o => cases o <;> exact ⟨_, rfl⟩
  have hlineage (cls : Value) : ∃ vs, (Run.lineage cls).run m = .ok vs m := by
    cases cls with
    | ref a =>
      rw [Run.lineage, EStateM.run_bind, Run.run_object?]
      cases m.object? a with
      | none => exact ⟨_, rfl⟩
      | some o => cases o <;> exact ⟨_, rfl⟩
    | _ => exact ⟨_, rfl⟩
  obtain ⟨cls, hcls⟩ := hclass
  obtain ⟨vs, hvs⟩ := hlineage cls
  rw [Run.isException, EStateM.run_bind, hcls]
  dsimp only
  rw [Run.isSubclass, EStateM.run_bind, hvs]
  exact ⟨_, rfl⟩

/-- The error for an exception gives the line of the program on which it was raised first. -/
theorem failed_of_failure {e : Address} {r : RenderError × LogEntry}
    (h : (Render.failure (operations n) p true e).run m = .ok r m') : ∃ cause text,
    r.1 = .failed p.name ((Render.originIn m e).bind fun l : Nat => p.lineMap.find? l) cause text := by
  obtain ⟨origin, m₁, horigin, h⟩ := Run.exists_of_bind h
  cases horigin
  obtain ⟨shown, m₂, -, h⟩ := Run.exists_of_bind h
  obtain ⟨cls, m₃, -, h⟩ := Run.exists_of_bind h
  obtain ⟨cause, m₄, -, h⟩ := Run.exists_of_bind h
  obtain ⟨text, m₅, -, h⟩ := Run.exists_of_bind h
  cases h
  exact ⟨cause, text, rfl⟩

/-- The statements of a program that fails end with an exception, and the error is about it. -/
theorem exists_raised_of_runBody {c : Value} {err : RenderError} {entry : LogEntry}
    (h : (Render.runBody (operations n) p true body c).run m = .ok (.error err, entry) m') :
    ∃ space m₁ e m₂, (Render.namespaceOf (operations n) c).run m = .ok space m₁ ∧
      ((operations n).resume Env.top .proceed [.run body]).run (startMachine m₁ space) =
        .error (.raised e) m₂ ∧ ∃ cause text,
      err = .failed p.name ((Render.originIn m₂ e).bind fun l : Nat => p.lineMap.find? l) cause text := by
  obtain ⟨space, m₁, hspace, -⟩ := Run.exists_of_bind h
  rw [run_runBody_eq p body hspace] at h
  obtain ⟨ended, m₂, hended, h⟩ := Run.exists_of_bind h
  cases ended with
  | none =>
    obtain ⟨text, m₃, -, h⟩ := Run.exists_of_bind h
    cases h
  | some e =>
    obtain ⟨r, m₃, hfailure, h⟩ := Run.exists_of_bind h
    obtain ⟨cause, text, hr⟩ := failed_of_failure hfailure
    cases h
    rw [endedBy, Run.catching, Run.run_tryCatch, EStateM.run_bind] at hended
    cases hresume : ((operations n).resume Env.top .proceed [.run body]).run (startMachine m₁ space) with
    | ok outcome m₄ =>
      rw [hresume] at hended
      cases hended
    | error stop m₄ =>
      rw [hresume] at hended
      cases stop with
      | exhausted => cases hended
      | raised e' =>
        dsimp only at hended
        -- an exception that may not be held back leaves the run, so there would be no error of the template
        obtain ⟨held, hheld⟩ := exists_run_isException m₄ e' .exception
        rw [EStateM.run_bind, hheld] at hended
        cases held with
        | false => cases hended
        | true =>
          cases hended
          exact ⟨space, m₁, e, m₂, hspace, hresume, cause, text, hr⟩

/-- A template that fails has run its program with the context for a value. -/
theorem exists_contextOf {err : RenderError} {after : Machine × Array LogEntry} (herr : err.IsFailure)
    (h : (t.renderBy (operations n) v).run.run (m, log) = (.error err, after)) :
    ∃ c m₁, (t.contextOf (operations n) v).run m = .ok c m₁ ∧
      (t.program.runBy (operations n) true c).run.run (m₁, log) = (.error err, after) := by
  have hrefuse {m : Machine} (h : ((do
      throw (.notBindings (← Rendering.ofRunBy (operations n) (Run.kindName v))) : Rendering Value) >>=
        t.program.runBy (operations n) true).run.run (m, log) = (.error err, after)) : False := by
    rw [bind_assoc] at h
    obtain ⟨kind, m₁, -, h⟩ := exists_of_isFailure herr h
    cases h
    exact herr
  unfold Template.renderBy at h
  cases v with
  | none => exact exists_of_isFailure herr h
  | ref a =>
    obtain ⟨b, m₁, hcontext, h⟩ := exists_of_isFailure herr h
    rw [Template.contextOf, EStateM.run_bind, hcontext]
    cases b with
    | true => exact ⟨.ref a, m₁, rfl, h⟩
    | false =>
      obtain ⟨o, m₂, hobject, h⟩ := exists_of_isFailure herr h
      cases hobject
      split at h
      · next es hes =>
        dsimp only
        rw [if_neg Bool.false_ne_true, EStateM.run_bind, Run.run_entries hes]
        exact exists_of_isFailure herr h
      · exact (hrefuse h).elim
  | _ => exact (hrefuse h).elim

/-- A program that fails has run its statements. -/
theorem exists_runBody {c : Value} {err : RenderError} {after : Machine × Array LogEntry} (herr : err.IsFailure)
    (h : (p.runBy (operations n) true c).run.run (m, log) = (.error err, after)) :
    ∃ body entry, p.body = some body ∧
      (Render.runBody (operations n) p true body c).run m = .ok (.error err, entry) after.1 := by
  rw [Program.runBy] at h
  cases hbody : p.body with
  | none =>
    rw [hbody] at h
    cases h
    exact herr.elim
  | some body =>
    rw [hbody] at h
    obtain ⟨⟨result, entry⟩, m', hrun, h⟩ := exists_of_isFailure herr h
    cases result with
    | ok text => cases h
    | error err' =>
      cases h
      exact ⟨body, entry, rfl, hrun⟩

/-- A template that fails ends its statements with an exception, and the error gives the line of the program on
which that was raised first. -/
theorem exists_ending {err : RenderError} {after : Machine × Array LogEntry} (herr : err.IsFailure)
    (h : (t.renderBy (operations n) v).run.run (m, log) = (.error err, after)) :
    ∃ body m₀ m₁ e m₂ cause text, t.program.body = some body ∧
      (t.start (operations n) v).run m = .ok m₀ m₁ ∧
      ((operations n).resume Env.top .proceed [.run body]).run m₀ = .error (.raised e) m₂ ∧
      err = .failed t.program.name
        ((Render.originIn m₂ e).bind fun l : Nat => t.program.lineMap.find? l) cause text := by
  obtain ⟨c, m₁, hcontext, hrun⟩ := exists_contextOf herr h
  obtain ⟨body, entry, hbody, hrun⟩ := exists_runBody herr hrun
  obtain ⟨space, m₂, e, m₃, hspace, hresume, cause, text, rfl⟩ := exists_raised_of_runBody hrun
  refine ⟨body, startMachine m₂ space, m₂, e, m₃, cause, text, hbody, ?_, hresume, rfl⟩
  rw [Template.start, EStateM.run_bind, hcontext]
  dsimp only
  rw [EStateM.run_bind, hspace]
  rfl

end

/-! ## Lines of errors -/

/-- The statements of the program of a template stand on lines of the program on which something stands. -/
theorem within_of_ofText {settings : Settings} {name : String} {source : Text} {line : Int} {p : Program}
    {log log' : Array LogEntry} (hcode : ∀ s ∈ Segment.scan source line, ¬ s.CodeHolds '\r')
    (h : (Program.ofText settings name source line).run.run log = (.ok p, log')) {body : List Stmt}
    (hbody : p.body = some body) : ∀ s ∈ body, s.Within (lineLimits (Occupied p.source)) := by
  obtain ⟨b, body, hgenerate, hcheck, rfl⟩ := exists_generate_of_ofText h
  cases hbody
  have hreturn : '\r' ∉ b.text := fun hmem => by
    obtain ⟨s, hs, hc⟩ := exists_codeHolds_ofSegments.1
      (exists_codeHolds_of_mem_text (by decide) (by decide) hgenerate hmem)
    exact hcode s hs hc
  -- the program is checked with the statements that are run
  have hparse : parse b.text = .ok body := by
    unfold check at hcheck
    split at hcheck
    · cases hcheck
    · split at hcheck
      · cases hcheck
      · next hparse =>
        dsimp only at hcheck
        split at hcheck
        · cases hcheck
        · cases hcheck
          exact hparse
  refine within_of_parse hparse ?_
  rw [unifyBreaks_eq_self hreturn]
  exact located_occupied b.text

/-- A function that divides by its argument, in front of a remark, and that is called in a loop. -/
def dividingTemplate : Text :=
  "<% def f(n): %>\n<%= 1 // n # c %>\n<% end %>\n<% for i in [1, 0]: %><% f(i) %><% end %>".toList

/-- Whether an error is one of the code of a template at a line, for an exception of a kind. -/
def RenderError.failsAt (line : Int) (kind : String) : RenderError → Bool
  | .failed _ (some l) cause _ => l == line && cause == kind
  | _ => false

end Stencil
