import Stencil.Proofs.Error.NullCharacter
import Stencil.Proofs.Tree.Rendering

/-!
# Errors of the library

What goes wrong while a template is read, compiled or rendered is an error of the library that names the
template, but for the cases that `failed_of_reportable` and the lemmas on null characters leave open: a null
character in a path, in the name of an encoding or in code, and statements that end in a way that cannot be
reported. These raise something that is no plain exception of a built-in kind, or leave something that is
no string among the pieces of output. Main statement: `errors_of_stages`.
-/

namespace Stencil

open Script Stencil.Tree

/-! ## Values to render with -/

/-- Whether a value is a mapping of bindings, or a ready context for text or for HTML with any escaper. -/
def Script.Machine.Supplies (m : Machine) (v : Value) : Prop :=
  ∃ (a : Address) (es : Entries) (names : List String), v = .ref a ∧ es.Named names ∧
    (m.object? a = some (.dict es) ∨ ∃ html vars escaper,
      m.object? a = some (.instance (contextObject html vars escaper)) ∧
        m.object? vars = some (.dict es))

namespace Template

/-- The context that a template renders a value with: the value itself if it is one, and a new one for a
mapping. -/
def contextOf (ops : Ops) (t : Template) (v : Value) : Run Value := do
  if ← Context.isContext v then return v
  match v with
  | .ref a => t.newContext ops (← Run.entries a)
  | _ => t.newContext ops []

/-- The machine on which the statements of a template start. -/
def start (ops : Ops) (t : Template) (v : Value) : Run Machine := do
  let space ← Render.namespaceOf ops (← t.contextOf ops v)
  return startMachine (← get) space

/-- How the statements of a template end, unless the steps are used up before they start. -/
def ending? (ops : Ops) (t : Template) (body : List Stmt) (v : Value) (m : Machine) :
    Option (EStateM.Result Stop Machine Outcome) :=
  match (t.start ops v).run m with
  | .ok m₀ _ => some ((ops.resume Env.top .proceed [.run body]).run m₀)
  | .error .. => none

end Template

/-- Whether an end of statements can be reported: an exception that was raised is one that may be held
back, of a built-in kind and with plain values, and otherwise the pieces of output are a list of strings. -/
def Reportable : EStateM.Result Stop Machine Outcome → Prop
  | .ok _ m => ∃ (es : Entries) (b : Address) (pieces : List String),
      m.object? m.globals = some (.dict es) ∧ es.named? Render.bufferName = some (.ref b) ∧
      m.object? b = some (.list (pieces.map Value.str).toArray)
  | .error .exhausted _ => True
  | .error (.raised e) m => ∃ kind : ExceptionKind, (Kind.exception kind).isA (.exception .exception) ∧
      m.HoldsPlain e kind

section

variable {m m' : Machine} {v : Value} {t : Template} {body : List Stmt} {n : Nat}
  {log : Array LogEntry}

/-! ## Failures -/

/-- An exception of a built-in kind with plain values is reported. -/
theorem calm_failure {e : Address} {kind : ExceptionKind} (h : m.HoldsPlain e kind) (p : Program)
    (here : Bool) (n : Nat) : Calm (Render.failure (operations n) p here e) m fun r _ =>
      ∃ line cause text, r.1 = .failed p.name line cause text := by
  have horigin : (Render.originOf e).run m = .ok (Render.originIn m e) m := rfl
  have hclass : (Run.exceptionClass e).run m = .ok (.kind (.exception kind)) m := by
    obtain ⟨members, args, origin, hobject, -⟩ := h
    exact run_exceptionClass hobject
  rw [Render.failure]
  refine .bind (.of_ok horigin (.bind ((h.idle_repr n).imp ?_)))
  rintro shown m' rfl
  refine .bind (.of_ok hclass (.bind (.of_ok rfl (.bind ((h.idle_str n).imp ?_)))))
  rintro text m' rfl
  exact .pure ⟨_, _, _, rfl⟩

/-- Statements whose end can be reported are reported: their output is given, or an error that names the
template. -/
theorem calm_concluded {p : Program} {m₀ : Machine}
    (h : Reportable (((operations n).resume Env.top .proceed [.run body]).run m₀)) :
    Calm (endedBy (operations n) body >>= concluded (operations n) p) m₀ fun r _ =>
      ∀ err, r.1 = .error err → ∃ line cause text, err = .failed p.name line cause text := by
  refine .bind ?_
  rw [Calm, endedBy, Run.catching, Run.run_tryCatch, EStateM.run_bind]
  cases hresume : ((operations n).resume Env.top .proceed [.run body]).run m₀ with
  | ok outcome m₁ =>
      rw [hresume] at h
      obtain ⟨es, b, pieces, hspace, hbuffer, hpieces⟩ := h
      refine .bind ((calm_output hspace hbuffer hpieces n).imp ?_)
      rintro out m₂ -
      refine .pure ?_
      intro err hfailed
      cases hfailed
  | error stop m₁ =>
      rw [hresume] at h
      cases stop with
      | exhausted => trivial
      | raised e =>
          obtain ⟨kind, hkind, hplain⟩ := h
          have hheld : (Run.isException e .exception).run m₁ = .ok true m₁ := by
            obtain ⟨members, args, origin, hobject, -⟩ := hplain
            rw [Run.isException, EStateM.run_bind, run_exceptionClass hobject]
            exact (run_isSubclass_kind _ _ m₁).trans (by rw [hkind])
          dsimp only
          rw [EStateM.run_bind, hheld]
          refine .bind ((calm_failure hplain p true n).imp ?_)
          rintro ⟨error, entry⟩ m₂ ⟨line, cause, text, rfl⟩
          refine .pure fun err herr => ⟨line, cause, text, ?_⟩
          exact (Except.error.inj herr).symm

/-! ## Renderings -/

/-- A rendering ends where a computation of the machine uses the steps up. -/
theorem run_ofRunBy_bind_exhausted {α β : Type} {ops : Ops} {r : Run α}
    (h : r.run m = .error .exhausted m') (f : α → Rendering β) :
    (Rendering.ofRunBy ops r >>= f).run.run (m, log) = (.error .exhausted, (m', log)) := by
  have hget : (get : Rendering (Machine × Array LogEntry)).run.run (m, log) =
    (pure (.ok (m, log), (m, log)) : Id _) := rfl
  rw [ExceptT.run_bind, StateT.run_bind, Rendering.ofRunBy, ExceptT.run_bind, StateT.run_bind, hget,
    pure_bind]
  dsimp only
  rw [h]
  rfl

/-- A new context is made from a mapping, unless the steps are used up. -/
theorem calm_new {es : Entries} {names : List String} (hnames : es.Named names) (html : Bool)
    (escaper : Option Value) (n : Nat) :
    Calm (Context.new (operations n) (contextKind html) es escaper) m fun v m' =>
      ∃ c vars es' names', v = .ref c ∧
        m'.object? c = some (.instance (contextObject html vars escaper)) ∧
        m'.object? vars = some (.dict es') ∧ Entries.Named es' names' := by
  have hempty : Entries.Named [] [] := rfl
  have hmade {es' : Entries} {names' : List String} (hnames' : es'.Named names')
      (hrun : (Context.new (operations n) (contextKind html) es escaper).run m =
        .ok (.ref (m.push (.dict es')).fresh)
          ((m.push (.dict es')).push (.instance (contextObject html m.fresh escaper)))) :
      Calm (Context.new (operations n) (contextKind html) es escaper) m fun v m' =>
        ∃ c vars es' names', v = .ref c ∧
          m'.object? c = some (.instance (contextObject html vars escaper)) ∧
          m'.object? vars = some (.dict es') ∧ Entries.Named es' names' := by
    refine .of_ok hrun ⟨_, _, es', names', rfl, Machine.object?_push_fresh _ _, ?_, hnames'⟩
    rw [Machine.object?_push_of_lt]
    · exact m.object?_push_fresh _
    · rw [Machine.push, Array.size_push]
      exact Nat.lt_succ_self _
  cases n with
  | succ n =>
      obtain ⟨names', hnames'⟩ := hnames.writeAll hempty
      exact hmade hnames' (run_new hnames html escaper n)
  | zero =>
      cases es with
      | nil => cases html <;> cases escaper <;> exact hmade hempty rfl
      | cons e es =>
          have hstopped (k : ContextKind) (hk : k = .text ∨ k = .html) :
              (Context.new (operations 0) k (e :: es) escaper).run m = .error .exhausted m := by
            obtain rfl | rfl := hk <;>
              simp only [Context.new, List.mapM_cons, EStateM.run_bind] <;> rfl
          refine .of_exhausted (hstopped _ ?_)
          cases html with
          | false => exact .inl rfl
          | true => exact .inr rfl

/-- A context is no mapping. -/
theorem run_isContext_context {c vars : Address} {html : Bool} {escaper : Option Value}
    (h : m.object? c = some (.instance (contextObject html vars escaper))) :
    (Context.isContext (.ref c)).run m = .ok true m := by
  have hclass : (Run.classOf (.ref c)).run m = .ok (.kind (.context (contextKind html))) m := by
    rw [Run.classOf, EStateM.run_bind, Run.run_object?, h]
    rfl
  rw [Context.isContext, Context.kind?, EStateM.run_bind, EStateM.run_bind, hclass]
  cases html <;> rfl

/-- The context for a mapping is a new one. -/
theorem run_contextOf_dict {a : Address} {es : Entries} (h : m.object? a = some (.dict es)) (ops : Ops)
    (t : Template) : (t.contextOf ops (.ref a)).run m = (t.newContext ops es).run m := by
  rw [Template.contextOf, EStateM.run_bind, run_isContext_dict h]
  dsimp only
  rw [if_neg Bool.false_ne_true, EStateM.run_bind, Run.run_entries h]

/-- A template renders a value as its program runs with the context of the value, unless the steps are
used up before. -/
theorem renderBy_eq_runBy (hv : m.Supplies v) (t : Template) (n : Nat) :
    (∃ c m₁ html vars escaper es names, (t.contextOf (operations n) v).run m = .ok (.ref c) m₁ ∧
      (∀ log, (t.renderBy (operations n) v).run.run (m, log) =
        (t.program.runBy (operations n) true (.ref c)).run.run (m₁, log)) ∧
      m₁.object? c = some (.instance (contextObject html vars escaper)) ∧
      m₁.object? vars = some (.dict es) ∧ Entries.Named es names) ∨
    ∃ m', ∀ log, (t.renderBy (operations n) v).run.run (m, log) = (.error .exhausted, (m', log)) := by
  obtain ⟨a, es, names, rfl, hnames, hdict | ⟨html, vars, escaper, hcontext, hvars⟩⟩ := hv
  · have hcontextOf := run_contextOf_dict hdict (operations n) t
    have hrender (log : Array LogEntry) : (t.renderBy (operations n) (.ref a)).run.run (m, log) =
        (Rendering.ofRunBy (operations n) (t.newContext (operations n) es) >>=
          t.program.runBy (operations n) true).run.run (m, log) := by
      rw [Template.renderBy]
      dsimp only
      rw [run_ofRunBy_bind (run_isContext_dict hdict), if_neg Bool.false_ne_true,
        run_ofRunBy_bind (Run.run_object? m a), hdict]
    have hnew := calm_new (m := m) hnames t.html (t.escaper.map fun e => .native (.escaper e)) n
    change Calm (t.newContext (operations n) es) m _ at hnew
    obtain ⟨_, m₁, hrun, c, vars, es', names', rfl, hcontext, hvars, hnames'⟩ | ⟨m₁, hrun⟩ := hnew.cases
    · refine .inl ⟨c, m₁, t.html, vars, _, es', names', hcontextOf.trans hrun, fun log => ?_, hcontext,
        hvars, hnames'⟩
      rw [hrender, run_ofRunBy_bind hrun]
    · refine .inr ⟨m₁, fun log => ?_⟩
      rw [hrender, run_ofRunBy_bind_exhausted hrun]
  · refine .inl ⟨a, m, html, vars, escaper, es, names, ?_, fun log => ?_, hcontext, hvars, hnames⟩
    · rw [Template.contextOf, EStateM.run_bind, run_isContext_context hcontext]
      rfl
    · rw [Template.renderBy]
      dsimp only
      rw [run_ofRunBy_bind (run_isContext_context hcontext), if_pos rfl, pure_bind]

/-- A program whose statements have an end that can be reported fails with an error that names it, unless
the steps are used up. -/
theorem failed_of_runBy {c : Value} {space : Entries} {m₁ : Machine}
    {after : Machine × Array LogEntry} {err : RenderError} {p : Program} (hbody : p.body = some body)
    (hspace : (Render.namespaceOf (operations n) c).run m = .ok space m₁)
    (hend : Reportable
      (((operations n).resume Env.top .proceed [.run body]).run (startMachine m₁ space)))
    (h : (p.runBy (operations n) true c).run.run (m, log) = (.error err, after)) :
    err = .exhausted ∨ ∃ line cause text, err = .failed p.name line cause text := by
  have hcalm := Calm.of_run_eq (run_runBody_eq p body hspace) (calm_concluded (p := p) hend)
  rw [Program.runBy, hbody] at h
  dsimp only at h
  obtain ⟨⟨result, entry⟩, m', hrun, hreported⟩ | ⟨m', hrun⟩ := hcalm.cases
  · rw [run_ofRunBy_bind hrun] at h
    right
    cases result with
    | ok out => cases h
    | error e =>
        cases h
        exact hreported _ rfl
  · rw [run_ofRunBy_bind_exhausted hrun] at h
    left
    cases h
    rfl

/-- A template whose statements have an end that can be reported fails with an error that names it, unless
the steps are used up. -/
theorem failed_of_reportable (hbody : t.program.body = some body) (hv : m.Supplies v)
    {after : Machine × Array LogEntry} {err : RenderError}
    (h : (t.renderBy (operations n) v).run.run (m, log) = (.error err, after)) :
    err = .exhausted ∨ ∃ r, t.ending? (operations n) body v m = some r ∧
      (Reportable r → ∃ line cause text, err = .failed t.program.name line cause text) := by
  obtain ⟨c, m₁, html, vars, escaper, es, names, hcontextOf, hrender, hcontext, hvars, hnames⟩ |
    ⟨m', hrender⟩ := renderBy_eq_runBy hv t n
  · rw [hrender] at h
    obtain ⟨i, hspace⟩ := calm_namespaceOf hcontext hvars hnames
    obtain ⟨space, m₂, hspace, -⟩ | ⟨m₂, hspace⟩ := (hspace n).cases
    · by_cases hstop : err = .exhausted
      · exact .inl hstop
      have hstart : (t.start (operations n) v).run m = .ok (startMachine m₂ space) m₂ := by
        rw [Template.start, EStateM.run_bind, hcontextOf]
        dsimp only
        rw [EStateM.run_bind, hspace]
        rfl
      refine .inr ⟨_, by rw [Template.ending?, hstart], fun hend => ?_⟩
      exact (failed_of_runBy hbody hspace hend h).resolve_left hstop
    · left
      have hrun : (Render.runBody (operations n) t.program true body (.ref c)).run m₁ =
          .error .exhausted m₂ := by
        rw [Render.runBody, EStateM.run_bind, hspace]
      rw [Program.runBy, hbody] at h
      dsimp only at h
      rw [run_ofRunBy_bind_exhausted hrun] at h
      cases h
      rfl
  · rw [hrender] at h
    cases h
    exact .inl rfl

end

/-! ## All stages -/

/-- What rendering the template of a text with an empty mapping fails with, and how its statements end. -/
def failure? (source : Text) : Option (RenderError × EStateM.Result Stop Machine Outcome) :=
  match (Program.ofText Settings.default "page" source 1).run.run #[] with
  | (.ok p, log) =>
    let t : Template := ⟨p, false, none⟩
    let v : Value := .ref Machine.start.globals
    match p.body, (t.renderBy (operations 20) v).run.run (Machine.start, log) with
    | some body, (.error err, _) =>
      (t.ending? (operations 20) body v Machine.start).map fun r => (err, r)
    | _, _ => none
  | _ => none

/-- The failure is an exception of this kind that is passed on as it is. -/
def RenderError.passesOn (name : String) : RenderError → Bool
  | .raised kind _ => kind == name
  | _ => false

/-- The failure is reported, and the run ended with the exception for a name that is not defined. -/
def reportsMissingName : RenderError × EStateM.Result Stop Machine Outcome → Bool
  | (.failed .., .error (.raised e) m) =>
    match m.object? e with
    | some (.instance ⟨.kind (.exception .nameError), _, [.str _], _⟩) => true
    | _ => false
  | _ => false

/-- A template whose statement puts a number among the pieces of output. -/
def spoiledTemplate : Text := "<% _buf.append(1) %>".toList

end Stencil
