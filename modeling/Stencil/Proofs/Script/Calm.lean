import Stencil.Proofs.Script.Contexts
import Stencil.Proofs.Script.Running
import Stencil.Proofs.Script.Shown

/-!
# Computations that raise no exception

A computation is calm on a machine when it gives a value there or uses its steps up, but raises no
exception. Draining an iterator is calm, so is gathering the bindings of a context
(`calm_bindings`), and so is writing an exception of a built-in kind that carries plain values
(`Machine.HoldsPlain.idle_repr`, `Machine.HoldsPlain.idle_str`).
-/

namespace Stencil.Script

/-- A computation raises no exception, and whenever it gives a value, the value and the machine that it
leaves meet a condition. -/
def Calm {α : Type} (x : Run α) (m : Machine) (Q : α → Machine → Prop) : Prop :=
  match x.run m with
  | .ok r m' => Q r m'
  | .error .exhausted _ => True
  | .error (.raised _) _ => False

namespace Calm

variable {α β : Type} {x : Run α} {m : Machine} {Q : α → Machine → Prop}

/-- A computation that is known to give a value. -/
theorem of_ok {r : α} {m' : Machine} (h : x.run m = .ok r m') (hQ : Q r m') : Calm x m Q := by
  rw [Calm, h]
  exact hQ

/-- A computation that uses its steps up. -/
theorem of_exhausted {m' : Machine} (h : x.run m = .error .exhausted m') : Calm x m Q := by
  rw [Calm, h]
  trivial

/-- A computation that runs as another one does. -/
theorem of_run_eq {y : Run α} {m₁ : Machine} (heq : x.run m = y.run m₁) (h : Calm y m₁ Q) :
    Calm x m Q := by
  rw [Calm, heq]
  exact h

/-- A value that is given at once. -/
theorem pure {r : α} (h : Q r m) : Calm (Pure.pure r : Run α) m Q :=
  of_ok rfl h

/-- What a calm computation comes to. -/
theorem cases (h : Calm x m Q) :
    (∃ r m', x.run m = .ok r m' ∧ Q r m') ∨ ∃ m', x.run m = .error .exhausted m' := by
  rw [Calm] at h
  split at h
  · next r m' hrun => exact .inl ⟨r, m', hrun, h⟩
  · next m' hrun => exact .inr ⟨m', hrun⟩
  · exact h.elim

/-- A weaker condition. -/
theorem imp {P : α → Machine → Prop} (h : Calm x m Q) (himp : ∀ r m', Q r m' → P r m') : Calm x m P := by
  obtain ⟨r, m', hrun, hQ⟩ | ⟨m', hrun⟩ := h.cases
  · exact .of_ok hrun (himp r m' hQ)
  · exact .of_exhausted hrun

/-- A computation and one that goes on from its value. -/
theorem bind {f : α → Run β} {P : β → Machine → Prop}
    (h : Calm x m fun r m' => Calm (f r) m' P) : Calm (x >>= f) m P := by
  obtain ⟨r, m', hrun, hf⟩ | ⟨m', hrun⟩ := h.cases
  · refine of_run_eq ?_ hf
    rw [EStateM.run_bind, hrun]
  · have hstop : (x >>= f).run m = .error .exhausted m' := by rw [EStateM.run_bind, hrun]
    exact of_exhausted hstop

end Calm

/-- Whether a computation leaves the machine as it is, and raises nothing. -/
abbrev Idle {α : Type} (x : Run α) (m : Machine) : Prop :=
  Calm x m fun _ m' => m' = m

/-- A computation and what is made of its value. -/
theorem Idle.map {α β : Type} {x : Run α} {m : Machine} (h : Idle x m) (f : α → β) :
    Idle (x >>= fun r => Pure.pure (f r)) m :=
  Calm.bind (h.imp fun _ _ h' => .pure h')

/-- Two computations in a row. -/
theorem Idle.andThen {α β : Type} {x : Run α} {f : α → Run β} {m : Machine} (h : Idle x m)
    (hf : ∀ r, Idle (f r) m) : Idle (x >>= f) m :=
  Calm.bind (h.imp fun r m' (h' : m' = m) => by rw [h']; exact hf r)

/-! ## Iterators -/

/-- Going through the items of an iterator comes to the same with more steps, unless it uses its steps
up. -/
theorem run_foldItems_add {β : Type} (ops : Ops) (iterator : Value) (f : β → Value → Run β) (more : Nat) :
    ∀ (fuel : Nat) (acc : β) (m : Machine),
    (∃ m', (Ops.foldItems.go ops iterator f fuel acc).run m = .error .exhausted m') ∨
      (Ops.foldItems.go ops iterator f (fuel + more) acc).run m =
        (Ops.foldItems.go ops iterator f fuel acc).run m := by
  intro fuel
  induction fuel with
  | zero => exact fun _ _ => .inl ⟨_, rfl⟩
  | succ fuel ih =>
      intro acc m
      rw [Ops.foldItems.go, EStateM.run_bind, Nat.add_right_comm, Ops.foldItems.go, EStateM.run_bind]
      cases (ops.advance iterator .none).run m with
      | error stop m₁ => exact .inr rfl
      | ok item m₁ =>
          cases item with
          | done v => exact .inr rfl
          | item v =>
              dsimp only
              rw [EStateM.run_bind, EStateM.run_bind]
              cases (f acc v).run m₁ with
              | error stop m₂ => exact .inr rfl
              | ok acc' m₂ => exact ih acc' m₂

section

variable {m : Machine} {k : Nat}

/-- The items that an iterator still gives, whatever number of steps may be taken. -/
theorem Remaining.calm_drain {i : Iterator} {ds : List Data} {a : Address} (h : Remaining m k i ds)
    (hobject : m.object? a = some (.iterator i)) (hk : k ≤ a.index) : ∃ vs i', DenoteAll m k vs ds ∧
      ∀ n, Calm ((operations n).drain (.ref a)) m fun r m' =>
        r = vs.toArray ∧ m' = m.put a (.iterator i') := by
  obtain ⟨vs, i', hvs, hgo⟩ := h.run_foldItems hobject hk
  refine ⟨vs, i', hvs, fun n => ?_⟩
  cases n with
  | zero => exact .of_exhausted rfl
  | succ n =>
      obtain ⟨m', hrun⟩ | hrun := run_foldItems_add (operations (n + 1)) (.ref a)
        (fun acc v => return acc.push v) (ds.length + 1) n #[] m
      · exact .of_exhausted hrun
      · rw [hgo n _ #[] (by omega), Array.empty_append] at hrun
        exact .of_ok hrun.symm ⟨rfl, rfl⟩

/-! ## Bindings -/

variable {c vars : Address} {html : Bool} {escaper : Option Value} {es : Entries}

/-- The bindings that a template sees are those of the dictionary of its context, whatever number of
steps may be taken. -/
theorem calm_bindings (h : m.object? c = some (.instance (contextObject html vars escaper)))
    (hvars : m.object? vars = some (.dict es)) {names : List String} (hnames : es.Named names) : ∃ i, ∀ n,
      Calm (Context.bindings (operations n) (.ref c)) m fun es' m' =>
        es' = gathered es names [] ∧ m' = m.push (.iterator i) := by
  obtain ⟨vs, i, hvs, hdrain⟩ := (remaining_keys hvars hnames).calm_drain (m.object?_push_fresh _)
    (Machine.index_lt hvars)
  obtain rfl := hvs.eq_strings
  refine ⟨i, fun n => ?_⟩
  have hpush {a : Address} {o : Object} (ha : m.object? a = some o) :
      (m.push (.iterator i)).object? a = some o :=
    (m.object?_push_of_lt a _ (Machine.index_lt ha)).trans ha
  cases n with
  | zero => exact .of_exhausted rfl
  | succ n =>
      have hitems : Calm (Iterate.items (operations (n + 1)) (.view .keys vars)) m fun ks m' =>
          ks = names.map .str ∧ m' = m.push (.iterator i) := by
        refine .of_run_eq (run_items_keys hvars _) (.bind ((hdrain (n + 1)).imp ?_))
        rintro ks m' ⟨rfl, rfl⟩
        exact .pure ⟨by simp, Machine.put_push_fresh ..⟩
      refine .of_run_eq (run_bindings_eq h n) (.bind (hitems.imp ?_))
      rintro ks m' ⟨rfl, rfl⟩
      exact .of_ok (run_valuesUnder (hpush h) (hpush hvars) names [] n) ⟨rfl, rfl⟩

end

/-! ## Plain values -/

/-- Whether an integer has few enough digits to be written. -/
@[irreducible]
def Value.isShort (i : Int) : Bool :=
  i.natAbs < Nat.pow 10 Numeral.digitLimit

mutual

/-- Whether the text of a value depends on no object, and no integer in it has too many digits. -/
def Value.isPlain : Value → Bool
  | .none | .bool _ | .float _ | .str _ | .bytes _ => true
  | .int i => isShort i
  | .tuple vs => arePlain vs
  | _ => false

/-- Whether values are plain. -/
def Value.arePlain : List Value → Bool
  | [] => true
  | v :: vs => isPlain v && arePlain vs

end

/-- Values are plain when each of them is. -/
theorem Value.arePlain_iff {vs : List Value} : arePlain vs ↔ ∀ v ∈ vs, v.isPlain := by
  induction vs with
  | nil => simp [arePlain]
  | cons v vs ih => simp [arePlain, ih]

section

variable {m : Machine}

/-- Showing a value is idle with the operations of a number of steps when it is with those of one step
less. -/
theorem idle_repr {v : Value} (h : ∀ n, Idle (Show.repr (operations n) v) m) (n : Nat) :
    Idle ((operations n).repr v) m := by
  cases n with
  | zero => exact .of_exhausted rfl
  | succ n => exact h n

/-- Writing a value is idle with the operations of a number of steps when it is with those of one step
less. -/
theorem idle_str {v : Value} (h : ∀ n, Idle (Show.str (operations n) v) m) (n : Nat) :
    Idle ((operations n).str v) m := by
  cases n with
  | zero => exact .of_exhausted rfl
  | succ n => exact h n

/-- Showing an integer without too many digits is idle. -/
theorem idle_repr_int {i : Int} (h : Value.isShort i) (ops : Ops) : Idle (Show.repr ops (.int i)) m := by
  unfold Value.isShort at h
  rw [Show.repr, lift_decimal, h]
  exact .pure rfl

mutual

/-- Showing a plain value is idle. -/
theorem Value.isPlain.idle_repr : (v : Value) → v.isPlain → ∀ n, Idle (Show.repr (operations n) v) m
  | .none, _, _ | .bool _, _, _ | .float _, _, _ | .str _, _, _ | .bytes _, _, _ => .pure rfl
  | .int i, h, n => idle_repr_int (by rwa [isPlain] at h) _
  | .tuple vs, h, n => by
      rw [Show.repr, Show.tuple]
      refine Idle.andThen (Value.arePlain.idle_each vs (by rwa [isPlain] at h) n) fun ss => ?_
      split <;> exact .pure rfl

/-- Showing plain values is idle. -/
theorem Value.arePlain.idle_each : (vs : List Value) → arePlain vs →
    ∀ n, Idle (Show.each (operations n) vs) m
  | [], _, _ => .pure rfl
  | v :: vs, h, n => by
      rw [arePlain, Bool.and_eq_true] at h
      rw [Show.each, List.mapM_cons]
      exact Idle.andThen (Script.idle_repr (Value.isPlain.idle_repr v h.1) n)
        fun _ => (Value.arePlain.idle_each vs h.2 n).map _

end

/-- Writing a plain value is idle. -/
theorem Value.isPlain.idle_str {v : Value} (h : v.isPlain) (n : Nat) :
    Idle (Show.str (operations n) v) m := by
  have hrepr : Idle ((operations n).repr v) m := Script.idle_repr (Value.isPlain.idle_repr v h) n
  cases v with
  | str s => exact .pure rfl
  | none | bool b | float x | bytes b | int i | tuple vs => exact hrepr
  | _ => cases h

/-! ## Exceptions -/

/-- Whether an exception is of a built-in kind and carries plain values. -/
def Machine.HoldsPlain (m : Machine) (e : Address) (kind : ExceptionKind) : Prop :=
  ∃ members args origin,
    m.object? e = some (.instance ⟨.kind (.exception kind), members, args, origin⟩) ∧
      ∀ v ∈ args, v.isPlain

variable {e : Address} {kind : ExceptionKind}

/-- All kinds of exceptions are exceptions. -/
theorem run_isExceptionClass_kind (kind : ExceptionKind) :
    (Run.isExceptionClass (.kind (.exception kind))).run m = .ok true m := by
  rw [Run.isExceptionClass, run_isSubclass_kind]
  cases kind <;> rfl

/-- Showing an exception of a built-in kind that carries plain values is idle. -/
theorem Machine.HoldsPlain.idle_repr (h : m.HoldsPlain e kind) (n : Nat) :
    Idle ((operations n).repr (.ref e)) m := by
  obtain ⟨members, args, origin, hobject, hargs⟩ := h
  refine Script.idle_repr (fun n => ?_) n
  have heach : Idle (Show.each (operations n) args) m :=
    Value.arePlain.idle_each args (Value.arePlain_iff.2 hargs) n
  rw [Show.repr, Show.object]
  refine .bind (.of_ok (Run.run_object? m e) ?_)
  rw [hobject]
  dsimp only
  rw [Show.objectOf]
  refine .bind (.of_ok (run_special_exception hobject _ _ _) ?_)
  refine .bind (.of_ok (run_isExceptionClass_kind kind) ?_)
  rw [if_pos rfl, Show.shownException]
  exact .bind (.of_ok rfl (heach.map _))

/-- Writing an exception of a built-in kind that carries plain values is idle. -/
theorem Machine.HoldsPlain.idle_str (h : m.HoldsPlain e kind) (n : Nat) :
    Idle ((operations n).str (.ref e)) m := by
  obtain ⟨members, args, origin, hobject, hargs⟩ := h
  refine Script.idle_str (fun n => ?_) n
  have hrepr {v : Value} (hv : v ∈ args) : Idle ((operations n).repr v) m :=
    Script.idle_repr (Value.isPlain.idle_repr v (hargs v hv)) n
  have hstr {v : Value} (hv : v ∈ args) : Idle ((operations n).str v) m :=
    Script.idle_str (Value.isPlain.idle_str (hargs v hv)) n
  have htuple : Idle (Show.tuple (operations n) args) m := by
    rw [Show.tuple]
    refine Idle.andThen (Value.arePlain.idle_each args (Value.arePlain_iff.2 hargs) n) fun ss => ?_
    split <;> exact .pure rfl
  rw [Show.str]
  refine .bind (.of_ok (Run.run_object? m e) ?_)
  rw [hobject]
  dsimp only
  refine .bind (.of_ok (run_special_exception hobject _ _ _) ?_)
  refine .bind (.of_ok (run_isExceptionClass_kind kind) ?_)
  rw [if_pos rfl, Show.exception]
  dsimp only
  split
  · exact .pure rfl
  · next v =>
      refine .bind (.of_ok (run_isSubclass_kind _ _ m) ?_)
      split
      · exact hrepr List.mem_cons_self
      · exact hstr List.mem_cons_self
  · next v w =>
      refine .bind (.of_ok (run_isSubclass_kind _ _ m) ?_)
      split
      · exact Idle.andThen (hstr List.mem_cons_self) fun _ =>
          (hstr (List.mem_cons_of_mem _ List.mem_cons_self)).map _
      · exact htuple
  · exact htuple

end

end Stencil.Script
