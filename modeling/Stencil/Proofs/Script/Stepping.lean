import Stencil.Proofs.Script.Running

/-!
# Runs of statements

A run of statements goes from task to task. `Ends` says that a task, whatever tasks are below it, comes
to its end and hands on to those, either in the usual way or with an exception, and how it leaves the
machine. A statement does so when its execution does, or when the task that it hands over to does; a
sequence of statements does when its statements do, up to the first that raises an exception.
-/

namespace Stencil.Script

open Statement (Move)

/-- Where a run is: the signal that reaches the topmost task, the tasks, and the machine. -/
structure RunState where
  signal : Signal
  tasks : List Task
  machine : Machine

/-- A run comes from one place to another in a number of steps, with all operations of at least a number
of steps. -/
def Comes (least : Nat) (c : RunState) (steps : Nat) (c' : RunState) : Prop :=
  ∀ n ≥ least, ∀ fuel,
    (Statement.run (operations n) Env.top (fuel + steps) c.signal c.tasks).run c.machine =
      (Statement.run (operations n) Env.top fuel c'.signal c'.tasks).run c'.machine

/-- The signal with which a task ends: in the usual way, or with an exception. -/
def endSignal : Option Address → Signal
  | none => .proceed
  | some e => .raised e

section

variable {least : Nat} {m m' m₁ : Machine} {t : Task} {rest : List Task} {s : Stmt} {ss : List Stmt}
  {e : Address} {r : Option Address}

/-! ## Steps -/

/-- No step. -/
theorem Comes.refl (least : Nat) (c : RunState) : Comes least c 0 c :=
  fun _ _ _ => rfl

/-- Some steps and further ones. -/
theorem Comes.trans {c c' c'' : RunState} {j k : Nat} (h : Comes least c j c')
    (h' : Comes least c' k c'') : Comes least c (k + j) c'' := by
  intro n hn fuel
  rw [← Nat.add_assoc, h n hn, h' n hn]

/-- One step. -/
theorem Comes.of_step {signal signal' : Signal} {tasks : List Task}
    (h : ∀ n ≥ least, (Statement.step (operations n) Env.top signal t rest).run m =
      .ok (.next signal' tasks) m') :
    Comes least ⟨signal, t :: rest, m⟩ 1 ⟨signal', tasks, m'⟩ := by
  intro n hn fuel
  rw [Statement.run, EStateM.run_bind, h n hn]

/-- A task that is taken up goes on with others. -/
theorem Comes.of_perform {signal' : Signal} {tasks : List Task}
    (h : ∀ n ≥ least, (Statement.perform (operations n) Env.top .none t rest).run m =
      .ok (.next signal' tasks) m') :
    Comes least ⟨.proceed, t :: rest, m⟩ 1 ⟨signal', tasks, m'⟩ :=
  .of_step fun n hn => by rw [Statement.step, Run.run_tryCatch, h n hn]

/-- A task that is taken up raises an exception. -/
theorem Comes.of_perform_error
    (h : ∀ n ≥ least, (Statement.perform (operations n) Env.top .none t rest).run m =
      .error (.raised e) m') :
    Comes least ⟨.proceed, t :: rest, m⟩ 1 ⟨.raised e, rest, m'⟩ :=
  .of_step fun n hn => by
    rw [Statement.step, Run.run_tryCatch, h n hn]
    rfl

/-- What is left of a body does not hold an exception back. -/
theorem comes_unwind_run :
    Comes least ⟨.raised e, .run ss :: rest, m⟩ 1 ⟨.raised e, rest, m⟩ :=
  .of_step fun _ _ => rfl

/-- A loop does not hold an exception back. -/
theorem comes_unwind_loop {line : Nat} {iterator : Value} {target : Expr} {body orelse : List Stmt} :
    Comes least ⟨.raised e, .forLoop line iterator target body orelse :: rest, m⟩ 1
      ⟨.raised e, rest, m⟩ :=
  .of_step fun _ _ => rfl

/-! ## Tasks and statements -/

/-- A task comes to its end: in the usual way, or with an exception. -/
def Ends (least : Nat) (t : Task) (m : Machine) (r : Option Address) (m' : Machine) : Prop :=
  ∀ rest, ∃ k, Comes least ⟨.proceed, t :: rest, m⟩ k ⟨endSignal r, rest, m'⟩

/-- What is left to do of a body behind one of its statements. -/
def pending (more : List Stmt) (rest : List Task) : List Task :=
  if more.isEmpty then rest else .run more :: rest

/-- What is left to do when a statement has come to its end: an exception leaves the body. -/
def remaining (more : List Stmt) (rest : List Task) : Option Address → List Task
  | none => pending more rest
  | some _ => rest

/-- A statement at the front of a body comes to its end. -/
def Does (least : Nat) (s : Stmt) (m : Machine) (r : Option Address) (m' : Machine) : Prop :=
  ∀ more rest, ∃ k, Comes least ⟨.proceed, .run (s :: more) :: rest, m⟩ k
    ⟨endSignal r, remaining more rest r, m'⟩

/-- A body starts with its first statement, whose line is noted. -/
theorem perform_run (ops : Ops) (sent : Value) (more : List Stmt) (m : Machine) :
    (Statement.perform ops Env.top sent (.run (s :: more)) rest).run m =
      (Statement.execute ops Env.top s (pending more rest)).run (m.onLine s.line) := rfl

/-- A statement whose execution ends in the usual way. -/
theorem Does.of_execute (h : ∀ n ≥ least, ∀ rest,
      (Statement.execute (operations n) Env.top s rest).run (m.onLine s.line) =
        .ok (.next .proceed rest) m') :
    Does least s m none m' :=
  fun more rest => ⟨1, .of_perform fun n hn => by
    rw [perform_run, h n hn]
    rfl⟩

/-- A statement whose execution raises an exception. -/
theorem Does.of_execute_error (h : ∀ n ≥ least, ∀ rest,
      (Statement.execute (operations n) Env.top s rest).run (m.onLine s.line) =
        .error (.raised e) m') :
    Does least s m (some e) m' :=
  fun more rest => ⟨1, .of_perform_error fun n hn => by rw [perform_run, h n hn]⟩

/-- A statement that hands over to a task. -/
theorem Does.of_task (h : ∀ n ≥ least, ∀ rest,
      (Statement.execute (operations n) Env.top s rest).run (m.onLine s.line) =
        .ok (.next .proceed (t :: rest)) m₁)
    (ht : Ends least t m₁ r m') : Does least s m r m' := by
  intro more rest
  have hstart : Comes least ⟨.proceed, .run (s :: more) :: rest, m⟩ 1
      ⟨.proceed, t :: pending more rest, m₁⟩ :=
    .of_perform fun n hn => by rw [perform_run, h n hn]
  obtain ⟨k, hk⟩ := ht (pending more rest)
  cases r with
  | none => exact ⟨_, hstart.trans hk⟩
  | some e =>
      -- What is left of the body is below the task, so the exception has to leave it too.
      by_cases hmore : more.isEmpty
      · rw [pending, if_pos hmore] at hstart hk
        exact ⟨_, hstart.trans hk⟩
      · rw [pending, if_neg hmore] at hstart hk
        exact ⟨_, (hstart.trans hk).trans comes_unwind_run⟩

/-! ## Bodies -/

/-- The statements of a body come to their ends in turn, up to the first that raises an exception. -/
inductive DoesAll (least : Nat) : List Stmt → Machine → Option Address → Machine → Prop where
  | nil {m : Machine} : DoesAll least [] m none m
  | cons {s : Stmt} {ss : List Stmt} {m m₁ m' : Machine} {r : Option Address}
      (h : Does least s m none m₁) (hrest : DoesAll least ss m₁ r m') : DoesAll least (s :: ss) m r m'
  | raised {s : Stmt} {ss : List Stmt} {m m' : Machine} {e : Address}
      (h : Does least s m (some e) m') : DoesAll least (s :: ss) m (some e) m'

/-- One statement. -/
theorem DoesAll.single (h : Does least s m r m') : DoesAll least [s] m r m' := by
  cases r with
  | none => exact .cons h .nil
  | some e => exact .raised h

/-- Statements and further ones. -/
theorem DoesAll.append {ss' : List Stmt} (h : DoesAll least ss m none m₁)
    (h' : DoesAll least ss' m₁ r m') : DoesAll least (ss ++ ss') m r m' := by
  induction ss generalizing m with
  | nil =>
      cases h
      exact h'
  | cons s ss ih =>
      cases h with
      | cons hs hrest => exact .cons hs (ih hrest)

/-- Statements that raise an exception, and further ones. -/
theorem DoesAll.append_raised (h : DoesAll least ss m (some e) m') (ss' : List Stmt) :
    DoesAll least (ss ++ ss') m (some e) m' := by
  induction ss generalizing m with
  | nil => cases h
  | cons s ss ih =>
      cases h with
      | cons hs hrest => exact .cons hs (ih hrest)
      | raised hs => exact .raised hs

/-- A body comes to its end with its statements. -/
theorem DoesAll.ends (h : DoesAll least ss m r m') : Ends least (.run ss) m r m' := by
  induction ss generalizing m with
  | nil =>
      cases h
      exact fun rest => ⟨1, .of_perform fun _ _ => rfl⟩
  | cons s ss ih =>
      intro rest
      cases h with
      | @cons _ _ _ m₁ _ _ hs hrest =>
          obtain ⟨j, hj⟩ := hs ss rest
          by_cases hss : ss.isEmpty
          · obtain rfl := List.isEmpty_iff.1 hss
            cases hrest
            exact ⟨j, hj⟩
          · obtain ⟨k, hk⟩ := ih hrest rest
            rw [remaining, pending, if_neg hss] at hj
            exact ⟨_, hj.trans hk⟩
      | raised hs => exact hs ss rest

/-! ## Loops -/

section

variable {line : Nat} {iterator : Value} {target : Expr} {body : List Stmt} {v : Value}
  {m₂ m₃ : Machine}

/-- A loop is at its end when its iterator is. -/
theorem ends_loop_done (h : ∀ n ≥ least,
      ((operations n).advance iterator .none).run (m.onLine line) = .ok (.done v) m') :
    Ends least (.forLoop line iterator target body []) m none m' := by
  intro rest
  have hperform : Comes least ⟨.proceed, .forLoop line iterator target body [] :: rest, m⟩ 1
      ⟨.proceed, .run [] :: rest, m'⟩ := .of_perform fun n hn => by
    simp only [Statement.perform, EStateM.run_bind, Run.run_atLine, h n hn]
    rfl
  have hnil : DoesAll least [] m' none m' := .nil
  obtain ⟨k, hk⟩ := hnil.ends rest
  exact ⟨_, hperform.trans hk⟩

/-- A loop with an item left runs its body for it. -/
theorem comes_loop_item (hadvance : ∀ n ≥ least,
      ((operations n).advance iterator .none).run (m.onLine line) = .ok (.item v) m₁)
    (hassign : ∀ n ≥ least,
      (Assign.targets (operations n) Env.top [target] v).run m₁ = .ok () m₂) :
    Comes least ⟨.proceed, .forLoop line iterator target body [] :: rest, m⟩ 1
      ⟨.proceed, .run body :: .forLoop line iterator target body [] :: rest, m₂⟩ :=
  .of_perform fun n hn => by
    simp only [Statement.perform, EStateM.run_bind, Run.run_atLine, hadvance n hn, hassign n hn]
    rfl

/-- A loop goes on behind a body that ends in the usual way. -/
theorem ends_loop_item (hadvance : ∀ n ≥ least,
      ((operations n).advance iterator .none).run (m.onLine line) = .ok (.item v) m₁)
    (hassign : ∀ n ≥ least,
      (Assign.targets (operations n) Env.top [target] v).run m₁ = .ok () m₂)
    (hbody : DoesAll least body m₂ none m₃)
    (hmore : Ends least (.forLoop line iterator target body []) m₃ r m') :
    Ends least (.forLoop line iterator target body []) m r m' := by
  intro rest
  obtain ⟨j, hj⟩ := hbody.ends (.forLoop line iterator target body [] :: rest)
  obtain ⟨k, hk⟩ := hmore rest
  exact ⟨_, ((comes_loop_item hadvance hassign).trans hj).trans hk⟩

/-- A loop ends with the exception that its body raises. -/
theorem ends_loop_raised (hadvance : ∀ n ≥ least,
      ((operations n).advance iterator .none).run (m.onLine line) = .ok (.item v) m₁)
    (hassign : ∀ n ≥ least,
      (Assign.targets (operations n) Env.top [target] v).run m₁ = .ok () m₂)
    (hbody : DoesAll least body m₂ (some e) m') :
    Ends least (.forLoop line iterator target body []) m (some e) m' := by
  intro rest
  obtain ⟨j, hj⟩ := hbody.ends (.forLoop line iterator target body [] :: rest)
  exact ⟨_, ((comes_loop_item hadvance hassign).trans hj).trans comes_unwind_loop⟩

end

/-! ## Scripts -/

/-- A script that comes to its end does so when it may take enough steps. -/
theorem DoesAll.run_resume (h : DoesAll least ss m r m') : ∃ enough, ∀ n ≥ enough,
    ((operations n).resume Env.top .proceed [.run ss]).run m =
      match r with
      | none => .ok (.finished .none) m'
      | some e => .error (.raised e) m' := by
  obtain ⟨k, hk⟩ := h.ends []
  refine ⟨least + k + 2, fun n hn => ?_⟩
  obtain ⟨fuel, rfl⟩ : ∃ fuel, n = (fuel + 1 + k) + 1 := ⟨n - k - 2, by omega⟩
  have hrun := hk (fuel + 1 + k) (by omega) (fuel + 1)
  change (Statement.run (operations (fuel + 1 + k)) Env.top (fuel + 1 + k) .proceed [.run ss]).run m = _
  rw [hrun]
  cases r <;> rfl

end

end Stencil.Script
