import Stencil.Proofs.Script.Contexts
import Stencil.Proofs.Script.Running

/-!
# Attributes of contexts

Reading an attribute of a context finds the methods of its kind, what every object has, and its own
members. Under all other names it finds the bindings of the context (`run_member_binding`). Whatever the
name is, reading an attribute makes at most one further object (`exists_run_member`).
-/

namespace Stencil.Script

/-! ## Outcomes -/

/-- A computation whose exceptions are results. -/
def tried {α : Type} (x : Run α) : Run (Except Address α) :=
  Run.catching (do return .ok (← x)) fun e => return .error e

section

variable {α : Type} {x : Run α} {m m' : Machine}

/-- A computation goes on with the value of its first part. -/
theorem run_bind_of_ok {β : Type} {f : α → Run β} {r : α} (h : x.run m = .ok r m') :
    (x >>= f).run m = (f r).run m' := by
  rw [EStateM.run_bind, h]

/-- A computation ends with the exception that its first part raises. -/
theorem run_bind_of_error {β : Type} {f : α → Run β} {stop : Stop} (h : x.run m = .error stop m') :
    (x >>= f).run m = .error stop m' := by
  rw [EStateM.run_bind, h]

/-- A computation that gives a value. -/
theorem run_tried_ok {r : α} (h : x.run m = .ok r m') : (tried x).run m = .ok (.ok r) m' :=
  Run.run_catching_ok (by rw [EStateM.run_bind, h]; rfl)

/-- A computation that raises an exception. -/
theorem run_tried_raised {e : Address} (h : x.run m = .error (.raised e) m') :
    (tried x).run m = .ok (.error e) m' := by
  rw [tried, Run.catching, Run.run_tryCatch, EStateM.run_bind, h]
  rfl

/-- Computations that do the same are tried alike. -/
theorem run_tried_congr {y : Run α} (h : x.run m = y.run m') : (tried x).run m = (tried y).run m' := by
  rw [tried, Run.catching, Run.run_tryCatch, tried, Run.catching, Run.run_tryCatch]
  simp only [EStateM.run_bind, h]

/-- The first part of a computation gives a value. -/
theorem run_tried_bind {β : Type} {f : α → Run β} {r : α} (h : x.run m = .ok r m') :
    (tried (x >>= f)).run m = (tried (f r)).run m' :=
  run_tried_congr (run_bind_of_ok h)

/-- A function of a result. -/
theorem run_tried_map {β : Type} {r : Except Address α} (f : α → β) (h : (tried x).run m = .ok r m') :
    (tried (do return f (← x))).run m = .ok (r.map f) m' := by
  cases hx : x.run m with
  | ok a m₁ =>
      cases (run_tried_ok hx).symm.trans h
      exact run_tried_ok (by rw [EStateM.run_bind, hx]; rfl)
  | error stop m₁ =>
      cases stop with
      | raised e =>
          cases (run_tried_raised hx).symm.trans h
          exact run_tried_raised (by rw [EStateM.run_bind, hx])
      | exhausted =>
          rw [tried, Run.catching, Run.run_tryCatch, EStateM.run_bind, hx] at h
          cases h

/-- An exception is raised. -/
theorem run_fail (f : Failure) (m : Machine) :
    (Run.fail f : Run α).run m = .error (.raised m.fresh)
      (m.push (.instance ⟨.kind (.exception f.kind), [], f.args, some m.line⟩)) :=
  rfl

end

/-! ## Members of kinds -/

/-- The names of the attributes that the contexts for text or HTML have besides their bindings. -/
def attributeNames : List String := [
  "__annotations__", "__class__", "__contains__", "__delattr__", "__dict__", "__dir__", "__doc__",
  "__eq__", "__format__", "__ge__", "__getattr__", "__getattribute__", "__getitem__", "__getstate__",
  "__gt__", "__hash__", "__init__", "__init_subclass__", "__iter__", "__le__", "__len__", "__lt__",
  "__module__", "__ne__", "__new__", "__reduce__", "__reduce_ex__", "__repr__", "__setattr__",
  "__setitem__", "__sizeof__", "__str__", "__subclasshook__", "__weakref__", "_vars", "escape",
  "escaper", "get", "items", "keys", "set"]

/-- The names of the methods of contexts are names of attributes. -/
theorem contextMethod?_eq_none {name : String} (h : name ∉ attributeNames) (html : Bool) :
    contextMethod? html name = none := by
  have hkinds : ∀ k ∈ contextKinds html, ∀ method ∈ Member.kindMethods k, method ∈ attributeNames := by
    revert html
    decide +kernel
  refine List.find?_eq_none.2 fun k hk hmethod => h ?_
  exact hkinds k hk name (List.contains_iff_mem.1 hmethod)

section

variable {m : Machine} {c vars : Address} {html : Bool} {escaper : Option Value} {es : Entries}

/-- A member that a context has of its own. -/
theorem run_member_own (h : m.object? c = some (.instance (contextObject html vars escaper)))
    {name : String} {v : Value} (hmethod : contextMethod? html name = none)
    (hown : (contextObject html vars escaper).members.find? name = some v) (n : Nat) :
    ((operations (n + 1)).member (.ref c) name).run m = .ok v m := by
  rw [contextObject] at hown
  rw [run_member_eq h, Member.ofInstance]
  simp only [EStateM.run_bind, contextObject, Run.lineage, EStateM.run_pure]
  rw [← contextKinds, run_fromClasses_kinds, ← contextMethod?, hmethod]
  simp only [Option.map_none, hown]
  rfl

/-- An attribute that is neither a method of a context nor a member of its own. -/
theorem run_member_other (h : m.object? c = some (.instance (contextObject html vars escaper)))
    {name : String} (hmethod : contextMethod? html name = none)
    (hown : (contextObject html vars escaper).members.find? name = none) (n : Nat) :
    ((operations (n + 1)).member (.ref c) name).run m = (do
      match ← Member.common? (.ref c) name with
      | some shared => return shared
      | none =>
        if name = "__dict__" then Member.asDict (contextObject html vars escaper).members
        else if name = "escaper" then return .native (.escaper (if html then .html else .text))
        else ContextMethod.call (operations n) (contextKind html) c "__getattr__" [.str name] [] :
      Run Value).run m := by
  have hexception : (Member.ofException? (contextObject html vars escaper) name).run m = .ok none m := by
    unfold Member.ofException?
    rw [EStateM.run_bind, Run.isExceptionClass, contextObject, run_isSubclass_kind]
    cases html <;> rfl
  rw [contextObject] at hown hexception
  rw [run_member_eq h, Member.ofInstance]
  simp only [EStateM.run_bind, contextObject, Run.lineage, EStateM.run_pure]
  rw [← contextKinds, run_fromClasses_kinds, ← contextMethod?, hmethod]
  simp only [Option.map_none, hown, EStateM.run_bind, hexception]
  cases hcommon : (Member.common? (.ref c) name).run m with
  | error stop m' => rfl
  | ok shared m' =>
      cases shared with
      | some v => rfl
      | none =>
          by_cases hdict : name = "__dict__" <;> by_cases hescaper : name = "escaper" <;>
            cases html <;> simp [hdict, hescaper, contextKind]

/-- The dictionary of a context. -/
theorem dict?_contextObject : ContextMethod.dict? (contextKind html) (contextObject html vars escaper) =
    some vars := by
  cases html <;> rfl

/-- A name that is not that of an attribute gives the binding under it, and there has to be one. -/
theorem run_getattr_context (h : m.object? c = some (.instance (contextObject html vars escaper)))
    (hvars : m.object? vars = some (.dict es)) (ops : Ops) (name : String) :
    (ContextMethod.call ops (contextKind html) c "__getattr__" [.str name] []).run m =
      match es.named? name with
      | some v => .ok v m
      | none => (Run.fail ⟨.attributeError, [.str name]⟩ : Run Value).run m := by
  have hcall : (ContextMethod.call ops (contextKind html) c "__getattr__" [.str name] []).run m = (do
      match (← Run.entries vars).find? (.str name) with
      | some v => return v
      | none => Run.fail ⟨.attributeError, [.str name]⟩ : Run Value).run m := by
    rw [ContextMethod.call, EStateM.run_bind, Run.run_object?, h]
    cases html <;> rfl
  rw [hcall, EStateM.run_bind, Run.run_entries hvars, Entries.named?]
  dsimp only
  cases es.find? (.str name) <;> rfl

/-- An attribute of a context under the name of a binding is the binding. -/
theorem run_member_binding (h : m.object? c = some (.instance (contextObject html vars escaper)))
    (hvars : m.object? vars = some (.dict es)) {name : String} (hname : name ∉ attributeNames) (n : Nat) :
    ((operations (n + 1)).member (.ref c) name).run m =
      match es.named? name with
      | some v => .ok v m
      | none => (Run.fail ⟨.attributeError, [.str name]⟩ : Run Value).run m := by
  have hne : ∀ special ∈ attributeNames, name ≠ special := fun special hspecial heq =>
    hname (heq ▸ hspecial)
  have hown := find?_contextObject html vars escaper
    ⟨hne "_vars" (by decide +kernel), hne "escaper" (by decide +kernel)⟩
  have hcommon : (Member.common? (.ref c) name).run m = .ok none m := by
    unfold Member.common?
    split
    · exact absurd rfl (hne "__class__" (by decide +kernel))
    · exact absurd rfl (hne "__doc__" (by decide +kernel))
    · rfl
  rw [run_member_other h (contextMethod?_eq_none hname html) hown, EStateM.run_bind, hcommon]
  dsimp only
  rw [if_neg (hne "__dict__" (by decide +kernel)), if_neg (hne "escaper" (by decide +kernel))]
  exact run_getattr_context h hvars _ name

/-- Reading an attribute of a context ends, and makes at most further objects. -/
theorem exists_run_member (h : m.object? c = some (.instance (contextObject html vars escaper)))
    (hvars : m.object? vars = some (.dict es)) (name : String) :
    ∃ r m', m.Extends m' ∧ ∀ n, (tried ((operations (n + 1)).member (.ref c) name)).run m = .ok r m' := by
  by_cases hmethod : contextMethod? html name = none
  · cases hown : (contextObject html vars escaper).members.find? name with
    | some v => exact ⟨_, _, .refl m, fun n => run_tried_ok (run_member_own h hmethod hown n)⟩
    | none =>
        obtain ⟨shared, hcommon⟩ : ∃ shared, (Member.common? (.ref c) name).run m = .ok shared m := by
          unfold Member.common?
          split
          · refine ⟨some (.kind (.context (contextKind html))), ?_⟩
            simp [Run.classOf, h, contextObject]
          · exact ⟨_, rfl⟩
          · exact ⟨_, rfl⟩
        have heq (n : Nat) := run_member_other h hmethod hown n
        simp only [EStateM.run_bind, hcommon] at heq
        cases shared with
        | some v => exact ⟨_, _, .refl m, fun n => run_tried_ok (heq n)⟩
        | none =>
            dsimp only at heq
            by_cases hdict : name = "__dict__"
            · exact ⟨_, _, .push m _, fun n => run_tried_ok ((heq n).trans (by rw [if_pos hdict]; rfl))⟩
            by_cases hescaper : name = "escaper"
            · exact ⟨_, _, .refl m, fun n =>
                run_tried_ok ((heq n).trans (by rw [if_neg hdict, if_pos hescaper]; rfl))⟩
            have hgetattr (n : Nat) := run_getattr_context h hvars (operations n) name
            simp only [if_neg hdict, if_neg hescaper, hgetattr] at heq
            cases hfound : es.named? name with
            | some v =>
                simp only [hfound] at heq
                exact ⟨_, _, .refl m, fun n => run_tried_ok (heq n)⟩
            | none =>
                simp only [hfound] at heq
                exact ⟨_, _, .push m _, fun n => run_tried_raised (heq n)⟩
  · exact ⟨_, _, .refl m, fun n => run_tried_ok (run_member_method h hmethod n)⟩

end

end Stencil.Script
