import Mathlib
import Stencil.Proofs.Reach.Calls

/-!
# Names within limits

A name is looked up among the variables around, in the namespace of a class body, among the globals and
among the built-in values. Variables and namespaces are objects within the limits; the globals are reached
only under names within them.
-/

namespace Stencil.Script.Scope

open Std.Do
open scoped Pairs

set_option mvcgen.warning false

variable {L : Limits} {W : Likeness L} {env : Env} {id : String} {v : Value} {x : Variable}

@[spec] theorem undefined_spec {α : Type} : ⦃W.inside⦄ (undefined id : Run α) ⦃W.fails⦄ := by
  mvcgen [undefined]

@[spec] theorem unbound_spec {α : Type} : ⦃W.inside⦄ (unbound x : Run α) ⦃W.fails⦄ := by
  mvcgen [unbound]

@[grind →] theorem within_variableOf? (henv : env.Within L) (h : variableOf? env id = some x) :
    x.Within L := by
  unfold variableOf? at h
  grind [List.mem_of_find?_eq_some]

/-- A built-in value is within limits unless it hands out a namespace. -/
theorem within_builtin? (hid : id = "globals" ∨ id = "locals" → L.whole)
    (h : builtin? id = some v) : v.Within L := by
  unfold builtin? at h
  split at h
  · next f hf =>
    obtain rfl := Option.some.inj h
    have hname : f.name = id := by simpa using List.find?_some hf
    rintro (rfl | rfl) <;> exact hid (by simp [← hname, Native.name])
  · grind [Option.map_eq_some_iff]

/-- The value of a variable. -/
def ofVariable (x : Variable) : Run Value := do
  match ← Run.cell x.cell with
  | some v => return v
  | none => unbound x

@[spec] theorem ofVariable_spec (hx : x.Within L) :
    ⦃W.inside⦄ ofVariable x ⦃W.gives (Value.Within L)⦄ := by
  mvcgen [ofVariable] with grind

theorem run_global (id : String) (m : Machine) :
    (global id).run m =
      ((m.global? id).elim ((builtin? id).elim (undefined id) pure) pure : Run Value).run m := by
  simp only [global, EStateM.run_bind, EStateM.run_get, Run.run_entries_eq, Machine.global?]
  cases (m.entries m.globals).named? id with
  | some v => rfl
  | none => cases builtin? id <;> rfl

@[spec] theorem global_spec (hid : L.name id) :
    ⦃W.inside⦄ global id ⦃W.gives (Value.Within L)⦄ := by
  refine W.gives_of_run fun m n hw => ?_
  obtain ⟨heq, hv⟩ := W.global hw hid
  rw [run_global, run_global, ← heq]
  cases hm : m.global? id with
  | some v =>
    rw [hm] at hv
    exact ⟨rfl, hv, hw⟩
  | none =>
    cases hb : builtin? id with
    | none => exact Pairs.triple_iff.1 (W.gives_of_fails undefined_spec) m n hw
    | some v =>
      have hwhole : id = "globals" ∨ id = "locals" → L.whole := by
        rintro (rfl | rfl)
        · exact W.whole (.inl hid)
        · exact W.whole (.inr hid)
      exact ⟨rfl, within_builtin? hwhole hb, hw⟩

@[spec] theorem inSpace?_spec {a : Address} (ha : L.address a) :
    ⦃W.inside⦄ inSpace? a id ⦃W.gives (Value.IfWithin L)⦄ := by
  mvcgen [inSpace?] with grind

@[spec] theorem inNamespace?_spec (henv : env.Within L) :
    ⦃W.inside⦄ inNamespace? env id ⦃W.gives (Value.IfWithin L)⦄ := by
  mvcgen [inNamespace?] with grind

/-- A name that nothing within limits has is read among the globals. -/
theorem run_read_of_not_name (henv : env.Within L) (hname : ¬ L.name id) (hbinds : ¬ L.binds id)
    (hwhole : ¬ L.whole) {m : Machine} (hobject : ∀ a, L.address a → Object.IfWithin L (m.object? a)) :
    (read env id).run m = (global id).run m := by
  have hin : (inNamespace? env id).run m = .ok none m := by
    rw [inNamespace?]
    cases ha : env.namespaceAt with
    | none => rfl
    | some a =>
      dsimp only
      split
      · rfl
      · have ho := hobject a (henv.2 a ha)
        rw [inSpace?, EStateM.run_bind, Run.run_object?]
        cases hm : m.object? a with
        | none => rfl
        | some o =>
          rw [hm] at ho
          cases o with
          | space names =>
            have hnone : names.find? id = none := by
              refine Option.eq_none_iff_forall_ne_some.2 fun v hv => ?_
              obtain ⟨l₁, l₂, heq, -⟩ := List.lookup_eq_some_iff.1 hv
              exact hname (ho.1 (id, v) (heq ▸ List.mem_append_right _ List.mem_cons_self))
            show EStateM.Result.ok (names.find? id) m = _
            rw [hnone]
          | handedOut d => exact (hwhole ho.1).elim
          | _ => rfl
  have hvariable : variableOf? env id = none := by
    refine Option.eq_none_iff_forall_ne_some.2 fun x hx => ?_
    obtain ⟨-, hx'⟩ := within_variableOf? henv hx
    rw [variableOf?] at hx
    split at hx
    · cases hx
    · have hid : x.name = id := by simpa using List.find?_some hx
      exact hbinds (hid ▸ hx')
  rw [read, EStateM.run_bind, hin]
  dsimp only
  rw [hvariable]

@[spec] theorem read_spec (henv : env.Within L) (hid : L.name id) :
    ⦃W.inside⦄ read env id ⦃W.gives (Value.Within L)⦄ := by
  mvcgen [read] with grind

@[spec] theorem writeEntry_spec {a : Address} (ha : L.address a) (h : v.Within L) :
    ⦃W.inside⦄ writeEntry a id v ⦃W.stays⦄ := by
  mvcgen [writeEntry] with grind

@[spec] theorem removeEntry_spec {a : Address} (ha : L.address a) :
    ⦃W.inside⦄ removeEntry a id ⦃W.stays⦄ := by
  mvcgen [removeEntry] with grind

@[spec] theorem writeInSpace_spec {a : Address} (ha : L.address a) (hid : L.name id) (h : v.Within L) :
    ⦃W.inside⦄ writeInSpace a id v ⦃W.stays⦄ := by
  mvcgen [writeInSpace] with grind

@[spec] theorem removeFromSpace_spec {a : Address} (ha : L.address a) :
    ⦃W.inside⦄ removeFromSpace a id ⦃W.stays⦄ := by
  mvcgen [removeFromSpace] with grind

theorem writeGlobal_spec (hid : L.name id) (h : v.Within L) :
    ⦃W.inside⦄ (do writeEntry (← get).globals id v : Run Unit) ⦃W.stays⦄ :=
  W.stays_of_run fun _ _ hw => ⟨rfl, W.writeGlobal hw hid h⟩

theorem run_removeGlobal (id : String) (m : Machine) :
    (do removeEntry (← get).globals id : Run Unit).run m =
      (m.global? id).elim ((undefined id : Run Unit).run m) fun _ => .ok () (m.removeGlobal id) := by
  simp only [removeEntry, EStateM.run_bind, EStateM.run_get, Run.run_entries_eq, Machine.global?]
  cases (m.entries m.globals).named? id <;> rfl

theorem removeGlobal_spec (hid : L.name id) :
    ⦃W.inside⦄ (do removeEntry (← get).globals id : Run Unit) ⦃W.stays⦄ := by
  refine W.stays_of_run fun m n hw => ?_
  obtain ⟨heq, -⟩ := W.global hw hid
  rw [run_removeGlobal, run_removeGlobal, ← heq]
  cases hm : m.global? id with
  | none => exact Pairs.triple_iff.1 (W.stays_of_fails undefined_spec) m n hw
  | some v => exact ⟨rfl, W.removeGlobal hw hid (by rw [hm]; rfl)⟩

@[spec] theorem write_spec (henv : env.Within L) (hid : L.name id) (h : v.Within L) :
    ⦃W.inside⦄ write env id v ⦃W.stays⦄ := by
  unfold write
  split
  · mvcgen with grind
  · split
    · mvcgen with grind
    · exact writeGlobal_spec hid h

@[spec] theorem remove_spec (henv : env.Within L) (hid : L.name id) :
    ⦃W.inside⦄ remove env id ⦃W.stays⦄ := by
  unfold remove
  split
  · mvcgen with grind
  · split
    · mvcgen with grind
    · exact removeGlobal_spec hid

@[grind →] theorem within_captured (henv : env.Within L) (hx : x ∈ captured env) : x.Within L := by
  obtain ⟨y, hy, rfl⟩ := List.mem_map.1 hx
  exact henv.1 y (List.mem_of_mem_filter hy)

end Stencil.Script.Scope
