import Stencil.Proofs.Script.Calm
import Stencil.Proofs.Script.Stepping

/-!
# Computations that give a value

`Gives x m Q` says what holds when the computation `x` gives a value on the machine `m`. It says nothing
of a computation that raises an exception or uses its steps up, so it is shown without counting steps,
and holds whatever number of steps the operations may take.
-/

namespace Stencil.Script

/-- Whenever a computation gives a value, the value and the machine that it leaves meet a condition. -/
def Gives {α : Type} (x : Run α) (m : Machine) (Q : α → Machine → Prop) : Prop :=
  ∀ r m', x.run m = .ok r m' → Q r m'

namespace Gives

variable {α β : Type} {x : Run α} {m : Machine} {Q : α → Machine → Prop}

/-- A computation that is known to give a value. -/
theorem of_ok {r : α} {m' : Machine} (h : x.run m = .ok r m') (hQ : Q r m') : Gives x m Q := by
  intro r' m'' h'
  obtain ⟨rfl, rfl⟩ : r = r' ∧ m' = m'' := by
    rw [h] at h'
    cases h'
    exact ⟨rfl, rfl⟩
  exact hQ

/-- A computation that stops short. -/
theorem of_error {stop : Stop} {m' : Machine} (h : x.run m = .error stop m') : Gives x m Q := by
  intro r m'' h'
  rw [h] at h'
  cases h'

/-- A computation that runs as another one does. -/
theorem of_run_eq {y : Run α} {m₁ : Machine} (heq : x.run m = y.run m₁) (h : Gives y m₁ Q) :
    Gives x m Q :=
  fun r m' hrun => h r m' (heq.symm.trans hrun)

/-- A value that is given at once. -/
theorem pure {r : α} (h : Q r m) : Gives (Pure.pure r : Run α) m Q :=
  of_ok rfl h

/-- A computation and one that goes on from its value. -/
theorem bind {f : α → Run β} {P : β → Machine → Prop}
    (h : Gives x m fun r m' => Gives (f r) m' P) : Gives (x >>= f) m P := by
  intro r m' hrun
  rw [EStateM.run_bind] at hrun
  cases hx : x.run m with
  | error stop m₁ =>
      rw [hx] at hrun
      cases hrun
  | ok r₁ m₁ =>
      rw [hx] at hrun
      exact h r₁ m₁ hx r m' hrun

/-- A weaker condition. -/
theorem imp {P : α → Machine → Prop} (h : Gives x m Q) (himp : ∀ r m', Q r m' → P r m') : Gives x m P :=
  fun r m' hrun => himp r m' (h r m' hrun)

/-- A computation whose exceptions are handled gives a value itself, or its handler does. -/
theorem catching {handler : Address → Run α} (h : Gives x m Q)
    (hhandler : ∀ e m', x.run m = .error (.raised e) m' → Gives (handler e) m' Q) :
    Gives (Run.catching x handler) m Q := by
  intro r m' hrun
  rw [Run.catching, Run.run_tryCatch] at hrun
  cases hx : x.run m with
  | ok r₁ m₁ =>
      rw [hx] at hrun
      exact h r m' (hx.trans hrun)
  | error stop m₁ =>
      rw [hx] at hrun
      cases stop with
      | exhausted => cases hrun
      | raised e => exact hhandler e m₁ hx r m' hrun

end Gives

/-- What a calm computation gives. -/
theorem Calm.gives {α : Type} {x : Run α} {m : Machine} {Q : α → Machine → Prop} (h : Calm x m Q) :
    Gives x m Q := by
  obtain ⟨r, m', hrun, hQ⟩ | ⟨m', hrun⟩ := h.cases
  · exact .of_ok hrun hQ
  · exact .of_error hrun

/-! ## Operations -/

section

variable {m : Machine} {k : Nat}

/-- What the text of a value is made with no steps left, and with one step less. -/
theorem gives_repr {v : Value} {Q : String → Machine → Prop}
    (h : ∀ n, Gives (Show.repr (operations n) v) m Q) (n : Nat) :
    Gives ((operations n).repr v) m Q := by
  cases n with
  | zero => exact .of_error rfl
  | succ n => exact h n

/-- What the plain text of a value is made with no steps left, and with one step less. -/
theorem gives_str {v : Value} {Q : String → Machine → Prop}
    (h : ∀ n, Gives (Show.str (operations n) v) m Q) (n : Nat) : Gives ((operations n).str v) m Q := by
  cases n with
  | zero => exact .of_error rfl
  | succ n => exact h n

/-! ## Expressions -/

/-- A call with one argument gives what the value that is called gives on the value of the argument. -/
theorem gives_eval_call {callee e : Expr} {line : Nat} {Q : Value → Machine → Prop}
    (hline : ∀ l o id idLine, callee = .member l o id idLine → idLine = line)
    (h : ∀ n, Gives ((operations n).eval Env.top callee) m fun f m₁ =>
      Gives ((operations n).eval Env.top e) m₁ fun v m₂ =>
        Gives ((operations n).call f [v] []) (m₂.onLine line) Q) (n : Nat) :
    Gives ((operations n).eval Env.top (.call line callee [.positional e])) m Q := by
  cases n with
  | zero => exact .of_error rfl
  | succ n =>
      intro r m' hrun
      cases hcallee : ((operations n).eval Env.top callee).run m with
      | error stop m₁ =>
          have hcall : (operations (n + 1)).eval Env.top (.call line callee [.positional e]) =
            Eval.call (operations n) Env.top line callee [.positional e] := rfl
          rw [hcall] at hrun
          unfold Eval.call at hrun
          simp only [EStateM.run_bind, hcallee] at hrun
          cases hrun
      | ok f m₁ =>
          rw [run_eval_call n line hcallee hline] at hrun
          cases he : ((operations n).eval Env.top e).run m₁ with
          | error stop m₂ =>
              rw [he] at hrun
              cases hrun
          | ok v m₂ =>
              rw [he] at hrun
              exact h n f m₁ hcallee v m₂ he r m' hrun

/-- A name among the globals or among the built-in values gives its value. -/
theorem gives_eval_name {es : Entries} (hspace : m.object? m.globals = some (.dict es)) (line : Nat)
    (name : String) (n : Nat) : Gives ((operations n).eval Env.top (.name line name)) m fun v m' =>
      m' = m.onLine line ∧ (es.named? name = some v ∨ es.named? name = none ∧ Scope.builtin? name = some v) := by
  have hspace' : (m.onLine line).object? (m.onLine line).globals = some (.dict es) := hspace
  cases n with
  | zero => exact .of_error rfl
  | succ n =>
      cases hv : es.named? name with
      | some v => exact .of_ok ((run_eval_name n line).trans (run_read hspace' hv)) ⟨rfl, .inl rfl⟩
      | none =>
          cases hbuiltin : Scope.builtin? name with
          | none => exact .of_error ((run_eval_name n line).trans (run_read_undefined hspace' hv hbuiltin))
          | some v =>
              have hread : (Scope.read Env.top name).run (m.onLine line) = .ok v (m.onLine line) := by
                have hentries := Run.run_entries hspace'
                rw [Machine.globals_onLine] at hentries
                simp [Scope.read, Scope.inNamespace?, Scope.variableOf?, Env.top, Scope.global,
                  hentries, hv, hbuiltin]
              exact .of_ok ((run_eval_name n line).trans hread) ⟨rfl, .inr ⟨rfl, rfl⟩⟩

/-! ## Texts -/

/-- Whether a computation leaves the machine as it is when it gives a value. -/
abbrev LeavesBe {α : Type} (x : Run α) (m : Machine) : Prop :=
  Gives x m fun _ m' => m' = m

/-- A computation and what is made of its value. -/
theorem LeavesBe.map {α β : Type} {x : Run α} (h : LeavesBe x m) (f : α → β) :
    LeavesBe (x >>= fun r => Pure.pure (f r)) m :=
  Gives.bind (h.imp fun _ _ h' => .pure h')

/-- Two computations in a row. -/
theorem LeavesBe.andThen {α β : Type} {x : Run α} {f : α → Run β} (h : LeavesBe x m)
    (hf : ∀ r, LeavesBe (f r) m) : LeavesBe (x >>= f) m :=
  Gives.bind (h.imp fun r m' (h' : m' = m) => by rw [h']; exact hf r)

/-- Writing a container leaves the machine as it is when writing what it holds does. -/
theorem leavesBe_guarded {a : Address} {cycle : String} {body : Run String}
    (h : LeavesBe body { m with showing := a :: m.showing }) :
    LeavesBe (Show.guarded a cycle body) m := by
  intro s m' hrun
  simp only [Show.guarded, EStateM.run_bind, EStateM.run_get] at hrun
  split at hrun
  · cases hrun
    rfl
  · simp only [EStateM.run_bind, EStateM.run_set, Run.run_tryCatch] at hrun
    cases hbody : body.run { m with showing := a :: m.showing } with
    | error stop m₁ =>
        rw [hbody] at hrun
        cases hrun
    | ok s₁ m₁ =>
        rw [hbody] at hrun
        obtain rfl : m₁ = _ := h s₁ m₁ hbody
        cases hrun
        rfl

mutual

/-- Showing a value that denotes a data tree leaves the machine as it is. -/
theorem Denotes.leavesBe_repr : (d : Data) → {m : Machine} → {k : Nat} → {v : Value} →
    Denotes m k v d → ∀ n, LeavesBe (Show.repr (operations n) v) m
  | .none, _, _, _, .none, _ => .pure rfl
  | .bool _, _, _, _, .bool _, _ => .pure rfl
  | .int i, m, _, _, .int _, _ => by
      rw [Show.repr, lift_decimal]
      intro s m' hrun
      rw [run_unlessLong] at hrun
      split at hrun
      · cases hrun
        rfl
      · cases hrun
  | .float _, _, _, _, .float _, _ => .pure rfl
  | .str _, _, _, _, .str _, _ => .pure rfl
  | .list items, m, k, _, @Denotes.list _ _ a xs _ hlt hobject hitems, n => by
      have hitems' : DenoteAll { m with showing := a :: m.showing } a.index xs.toList items :=
        hitems.frame fun _ _ => rfl
      rw [Show.repr, Show.object]
      refine Gives.bind (.of_ok (Run.run_object? m a) ?_)
      rw [hobject]
      exact leavesBe_guarded ((hitems'.leavesBe_each items n).map _)
  | .dict entries, m, k, _, @Denotes.dict _ _ a es _ hlt hobject hentries, n => by
      have hentries' : DenoteEntries { m with showing := a :: m.showing } a.index es entries :=
        hentries.frame fun _ _ => rfl
      rw [Show.repr, Show.object]
      refine Gives.bind (.of_ok (Run.run_object? m a) ?_)
      rw [hobject]
      exact leavesBe_guarded ((hentries'.leavesBe_entries entries n).map _)

/-- Showing values that denote data trees leaves the machine as it is. -/
theorem DenoteAll.leavesBe_each : (ds : List Data) → {m : Machine} → {k : Nat} → {vs : List Value} →
    DenoteAll m k vs ds → ∀ n, LeavesBe (Show.each (operations n) vs) m
  | [], _, _, _, .nil, _ => .pure rfl
  | d :: ds, m, k, _, .cons hd hrest, n => by
      rw [Show.each, List.mapM_cons]
      exact LeavesBe.andThen (gives_repr (hd.leavesBe_repr d) n) fun _ => (hrest.leavesBe_each ds n).map _

/-- Showing the entries of a dictionary that denotes a mapping leaves the machine as it is. -/
theorem DenoteEntries.leavesBe_entries : (ds : List (Data × Data)) → {m : Machine} → {k : Nat} →
    {es : Entries} → DenoteEntries m k es ds → ∀ n, LeavesBe (es.mapM (showEntry (operations n))) m
  | [], _, _, _, .nil, _ => .pure rfl
  | (.str name, d) :: ds, m, k, _, .cons hd hrest, n => by
      have hname : Denotes m k (.str name) (.str name) := .str name
      rw [List.mapM_cons]
      have hvalue : LeavesBe ((operations n).repr _) m := gives_repr (hd.leavesBe_repr d) n
      refine LeavesBe.andThen ?_ fun _ => (hrest.leavesBe_entries ds n).map _
      exact LeavesBe.andThen (gives_repr (hname.leavesBe_repr _) n) fun _ => hvalue.map _

end

/-- A value that is shown as it is written leaves the machine as it is in both ways. -/
theorem leavesBe_plainText {v : Value} (hrepr : ∀ n, LeavesBe (Show.repr (operations n) v) m)
    (hstr : ∀ n, (Show.str (operations n) v).run m = ((operations n).repr v).run m) (n : Nat) :
    LeavesBe (plainText (operations n) v) m := by
  have htext : LeavesBe ((operations n).str v) m := by
    refine gives_str (fun n => ?_) n
    intro s m' hrun
    exact gives_repr hrepr n s m' ((hstr n).symm.trans hrun)
  cases v with
  | none | str s => exact .pure rfl
  | _ => exact htext

/-- Making the text of a value that denotes a data tree leaves the machine as it is. -/
theorem Denotes.leavesBe_plainText {v : Value} {d : Data} (h : Denotes m k v d) (n : Nat) :
    LeavesBe (plainText (operations n) v) m := by
  have hrepr := h.leavesBe_repr d
  cases h with
  | none | str s => exact .pure rfl
  | bool b | float x | int i => exact Script.leavesBe_plainText hrepr (fun _ => rfl) n
  | list hlt hobject hitems | dict hlt hobject hentries =>
      refine Script.leavesBe_plainText hrepr (fun n => ?_) n
      rw [Show.str, EStateM.run_bind, Run.run_object?, hobject]

/-- Making the text of a built-in value leaves the machine as it is. -/
theorem leavesBe_plainText_builtin {id : String} {v : Value} (h : Scope.builtin? id = some v) (n : Nat) :
    LeavesBe (plainText (operations n) v) m := by
  unfold Scope.builtin? at h
  split at h
  · next f _ =>
      cases h
      refine leavesBe_plainText (fun n => ?_) (fun _ => rfl) n
      cases f <;> exact .of_ok rfl rfl
  · split at h
    · cases h
      exact leavesBe_plainText (fun _ => .of_ok rfl rfl) (fun _ => rfl) n
    · cases h
      exact leavesBe_plainText (fun _ => .of_ok rfl rfl) (fun _ => rfl) n
    · cases h
      exact .pure rfl
    · cases h
      exact leavesBe_plainText (fun _ => .of_ok rfl rfl) (fun _ => rfl) n
    · obtain ⟨kind, -, rfl⟩ := Option.map_eq_some_iff.1 h
      exact leavesBe_plainText (fun _ => .of_ok rfl rfl) (fun _ => rfl) n

end

/-! ## Runs of statements -/

section

variable {m : Machine} {s : Stmt} {more : List Stmt} {n : Nat} {Q : Outcome → Machine → Prop}

/-- A body gives what it gives behind its first statement. -/
theorem gives_run_cons {R : Machine → Prop}
    (hs : ∀ rest, Gives (Statement.execute (operations n) Env.top s rest) (m.onLine s.line)
      fun move m' => move = .next .proceed rest ∧ R m')
    (hmore : ∀ m', R m' → ∀ fuel,
      Gives (Statement.run (operations n) Env.top fuel .proceed (pending more [])) m' Q) (fuel : Nat) :
    Gives (Statement.run (operations n) Env.top fuel .proceed (pending (s :: more) [])) m Q := by
  cases fuel with
  | zero => exact .of_error rfl
  | succ fuel =>
      intro r m' hrun
      rw [pending, if_neg (by simp), Statement.run, EStateM.run_bind, Statement.step,
        Run.run_tryCatch, perform_run] at hrun
      cases hexecute : (Statement.execute (operations n) Env.top s (pending more [])).run
        (m.onLine s.line) with
      | ok move m₁ =>
          obtain ⟨rfl, hR⟩ := hs _ _ _ hexecute
          rw [hexecute] at hrun
          exact hmore m₁ hR fuel r m' hrun
      | error stop m₁ =>
          rw [hexecute] at hrun
          cases stop with
          | exhausted => cases hrun
          | raised e =>
              -- the exception leaves the body, below which no task is left
              cases fuel <;> cases hrun

end

end Stencil.Script
