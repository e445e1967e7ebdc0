import Mathlib
import Stencil.Proofs.Reach.Machine

/-!
# Operations within limits

Operations are within limits when they keep machines alike and give values within the limits, whenever
they are given trees and values within them. What is made of such operations is so too: looking up the
class of a value, asking whether it counts as true, going through the items of an iterator.
-/

namespace Stencil.Script

open Std.Do
open scoped Pairs

set_option mvcgen.warning false

variable {L : Limits} {W : Likeness L} {α β : Type}

/-! ## Reading the machine -/

/-- The member of a class among the objects of a machine. -/
def Machine.classMember? (m : Machine) (name : String) : Value → Option Value
  | .ref a =>
    match m.object? a with
    | some (.cls c) => c.members.find? name
    | _ => none
  | _ => none

namespace Run

variable {v cls other : Value} {a : Address} {name : String}

@[spec] theorem newList_spec {items : List Value} (h : Value.AllWithin L items) :
    ⦃W.inside⦄ newList items ⦃W.gives fun v => ∃ a, v = .ref a ∧ L.address a⦄ :=
  alloc_spec (by simpa using h)

@[spec] theorem newDict_spec {entries : Entries} (h : entries.Within L) :
    ⦃W.inside⦄ newDict entries ⦃W.gives fun v => ∃ a, v = .ref a ∧ L.address a⦄ :=
  alloc_spec h

@[spec] theorem entries_spec (ha : L.address a) :
    ⦃W.inside⦄ entries a ⦃W.gives (Entries.Within L)⦄ := by
  mvcgen [entries] with grind

@[spec] theorem items_spec (ha : L.address a) :
    ⦃W.inside⦄ items a ⦃W.gives fun xs => Value.AllWithin L xs.toList⦄ := by
  mvcgen [items] with grind

@[spec] theorem cell_spec (ha : L.address a) :
    ⦃W.inside⦄ cell a ⦃W.gives (Value.IfWithin L)⦄ := by
  mvcgen [cell] with grind

@[spec] theorem classOf_spec (h : v.Within L) : ⦃W.inside⦄ classOf v ⦃W.gives (Value.Within L)⦄ := by
  mvcgen [classOf] with grind

@[spec] theorem nameOf_spec (h : cls.Within L) : ⦃W.inside⦄ nameOf cls ⦃W.stays⦄ := by
  mvcgen [nameOf] with grind

@[spec] theorem kindName_spec (h : v.Within L) : ⦃W.inside⦄ kindName v ⦃W.stays⦄ := by
  mvcgen [kindName] with grind

@[spec] theorem lineage_spec (h : cls.Within L) :
    ⦃W.inside⦄ lineage cls ⦃W.gives (Value.AllWithin L)⦄ := by
  have hkinds (ks : List Kind) : Value.AllWithin L (ks.map Value.kind) :=
    Value.allWithin_iff.2 (by simp)
  mvcgen [lineage] with grind

@[spec] theorem isSubclass_spec (h : cls.Within L) : ⦃W.inside⦄ isSubclass cls other ⦃W.stays⦄ := by
  mvcgen [isSubclass] with grind

@[spec] theorem isOfKind_spec {k : Kind} (h : v.Within L) : ⦃W.inside⦄ isOfKind v k ⦃W.stays⦄ := by
  mvcgen [isOfKind] with grind

@[spec] theorem exceptionClass_spec (ha : L.address a) :
    ⦃W.inside⦄ exceptionClass a ⦃W.gives (Value.Within L)⦄ :=
  classOf_spec (by simpa using ha)

@[spec] theorem isException_spec {k : ExceptionKind} (ha : L.address a) :
    ⦃W.inside⦄ isException a k ⦃W.stays⦄ := by
  mvcgen [isException] with grind

@[spec] theorem isExceptionClass_spec (h : v.Within L) :
    ⦃W.inside⦄ isExceptionClass v ⦃W.stays⦄ := by
  mvcgen [isExceptionClass] with grind

@[spec] theorem isClass_spec (h : v.Within L) : ⦃W.inside⦄ isClass v ⦃W.stays⦄ := by
  mvcgen [isClass] with grind

/-- A class that a run may reach has the same members on machines that are alike. -/
theorem alike_classMember? {m n : Machine} (hw : W.alike m n) (h : v.Within L) :
    m.classMember? name v = n.classMember? name v ∧ Value.IfWithin L (m.classMember? name v) := by
  cases v
  case ref a =>
    obtain ⟨heq, ho⟩ := W.object hw h
    rw [Machine.classMember?, Machine.classMember?, ← heq]
    refine ⟨rfl, ?_⟩
    split
    · next c hc =>
        rw [hc] at ho
        cases hf : c.members.find? name <;> grind
    · trivial
  all_goals exact ⟨rfl, trivial⟩

@[spec] theorem userMember?_spec (h : cls.Within L) :
    ⦃W.inside⦄ userMember? cls name ⦃W.gives (Value.IfWithin L)⦄ := by
  refine W.gives_bind (lineage_spec h) fun line hline => ?_
  refine W.gives_read (g := fun m => line.findSome? (m.classMember? name)) fun {m n} hw => ?_
  induction line with
  | nil => exact ⟨rfl, trivial⟩
  | cons v rest ih =>
    obtain ⟨heq, hv⟩ : m.classMember? name v = n.classMember? name v ∧
        Value.IfWithin L (m.classMember? name v) := alike_classMember? hw hline.1
    show List.findSome? _ _ = List.findSome? _ _ ∧ Value.IfWithin L (List.findSome? _ _)
    rw [List.findSome?_cons, List.findSome?_cons, ← heq]
    split
    · next hv' => exact ⟨rfl, by rwa [hv'] at hv⟩
    · exact ih hline.2

@[spec] theorem special?_spec (h : v.Within L) :
    ⦃W.inside⦄ special? v name ⦃W.gives (Value.IfWithin L)⦄ := by
  mvcgen [special?] with grind

/-- An exception may be dealt with by another computation. -/
theorem gives_catching {x : Run α} {handler : Address → Run α} {P : α → Prop}
    (hx : ⦃W.inside⦄ x ⦃W.gives P⦄) (hh : ∀ e, L.address e → ⦃W.inside⦄ handler e ⦃W.gives P⦄) :
    ⦃W.inside⦄ catching x handler ⦃W.gives P⦄ := by
  refine W.gives_tryCatch hx fun e he => ?_
  cases e with
  | raised a => exact hh a he
  | exhausted => mvcgen

/-- A value may be computed in another way where an exception is raised. -/
@[spec] theorem catching_spec {x : Run Value} {handler : Address → Run Value}
    (hx : ⦃W.inside⦄ x ⦃W.gives (Value.Within L)⦄)
    (hh : ∀ e, L.address e → ⦃W.inside⦄ handler e ⦃W.gives (Value.Within L)⦄) :
    ⦃W.inside⦄ catching x handler ⦃W.gives (Value.Within L)⦄ :=
  gives_catching hx hh

/-! ### Lists -/

variable {γ : Type} {xs : List γ} {P : β → Prop}

theorem gives_mapM {f : γ → Run β} (h : ∀ x ∈ xs, ⦃W.inside⦄ f x ⦃W.gives P⦄) :
    ⦃W.inside⦄ xs.mapM f ⦃W.gives fun ys => ∀ y ∈ ys, P y⦄ := by
  induction xs with
  | nil => (mvcgen [List.mapM_nil]; simp_all)
  | cons x xs ih =>
    obtain ⟨hx, hxs⟩ := List.forall_mem_cons.1 h
    have hr := ih hxs
    rw [List.mapM_cons]
    mvcgen [hx, hr] with simp_all

@[spec] theorem mapM_spec {f : γ → Run β} (h : ∀ x ∈ xs, ⦃W.inside⦄ f x ⦃W.stays⦄) :
    ⦃W.inside⦄ xs.mapM f ⦃W.stays⦄ :=
  W.stays_of_gives (gives_mapM fun x hx => W.gives_of_stays (h x hx))

@[spec high] theorem mapM_values_spec {f : γ → Run Value}
    (h : ∀ x ∈ xs, ⦃W.inside⦄ f x ⦃W.gives (Value.Within L)⦄) :
    ⦃W.inside⦄ xs.mapM f ⦃W.gives (Value.AllWithin L)⦄ :=
  W.gives_mono (gives_mapM h) fun _ => Value.allWithin_iff.2

@[spec high] theorem mapM_lists_spec {f : γ → Run (List Value)}
    (h : ∀ x ∈ xs, ⦃W.inside⦄ f x ⦃W.gives (Value.AllWithin L)⦄) :
    ⦃W.inside⦄ xs.mapM f ⦃W.gives fun vss => Value.AllWithin L vss.flatten⦄ :=
  W.gives_mono (gives_mapM h) fun _ hvss => Value.allWithin_iff.2 fun _ hv =>
    have ⟨_, hvs, hmem⟩ := List.mem_flatten.1 hv
    (hvss _ hvs).of_mem hmem

@[spec high] theorem mapM_variables_spec {f : γ → Run Variable}
    (h : ∀ x ∈ xs, ⦃W.inside⦄ f x ⦃W.gives (Variable.Within L)⦄) :
    ⦃W.inside⦄ xs.mapM f ⦃W.gives fun ys => ∀ y ∈ ys, y.Within L⦄ :=
  gives_mapM h

@[spec high] theorem mapM_entries_spec {f : γ → Run (Value × Value)}
    (h : ∀ x ∈ xs, ⦃W.inside⦄ f x ⦃W.gives fun e => e.1.Within L ∧ e.2.Within L⦄) :
    ⦃W.inside⦄ xs.mapM f ⦃W.gives (Entries.Within L)⦄ :=
  W.gives_mono (gives_mapM h) fun _ => Entries.within_iff.2

theorem filterMapM_spec {f : γ → Run (Option β)}
    (h : ∀ x ∈ xs, ⦃W.inside⦄ f x ⦃W.gives fun y => ∀ b, y = some b → P b⦄) :
    ⦃W.inside⦄ xs.filterMapM f ⦃W.gives fun ys => ∀ y ∈ ys, P y⦄ := by
  induction xs with
  | nil => (mvcgen [List.filterMapM_nil]; simp_all)
  | cons x xs ih =>
    obtain ⟨hx, hxs⟩ := List.forall_mem_cons.1 h
    have hr := ih hxs
    rw [List.filterMapM_cons]
    mvcgen [hx, hr] with simp_all

@[spec] theorem forM_spec {f : γ → Run PUnit} (h : ∀ x ∈ xs, ⦃W.inside⦄ f x ⦃W.stays⦄) :
    ⦃W.inside⦄ xs.forM f ⦃W.stays⦄ := by
  induction xs with
  | nil => mvcgen [List.forM]
  | cons x xs ih =>
    obtain ⟨hx, hxs⟩ := List.forall_mem_cons.1 h
    have hr := ih hxs
    mvcgen [List.forM, hx, hr]

theorem gives_foldlM {f : β → γ → Run β} {b : β} (hb : P b)
    (h : ∀ b, P b → ∀ x ∈ xs, ⦃W.inside⦄ f b x ⦃W.gives P⦄) :
    ⦃W.inside⦄ xs.foldlM f b ⦃W.gives P⦄ := by
  induction xs generalizing b with
  | nil => mvcgen [List.foldlM_nil]
  | cons x xs ih =>
    rw [List.foldlM_cons]
    exact W.gives_bind (h b hb x List.mem_cons_self) fun b' hb' =>
      ih hb' fun c hc y hy => h c hc y (List.mem_cons_of_mem x hy)

/-- Lists of values that are built up in turn stay within limits. -/
@[spec] theorem foldlM_values_spec {f : List Value → γ → Run (List Value)} {vs : List Value}
    (hvs : Value.AllWithin L vs)
    (h : ∀ vs, Value.AllWithin L vs → ∀ x ∈ xs, ⦃W.inside⦄ f vs x ⦃W.gives (Value.AllWithin L)⦄) :
    ⦃W.inside⦄ xs.foldlM f vs ⦃W.gives (Value.AllWithin L)⦄ :=
  gives_foldlM hvs h

end Run

/-! ## Operations -/

/-- What a body leaves off with is within limits. -/
@[simp, grind =] def Outcome.Within (L : Limits) : Outcome → Prop
  | .finished v => v.Within L
  | .yielded v tasks => v.Within L ∧ ∀ t ∈ tasks, t.Within L

/-- What an iterator gives is within limits. -/
@[simp, grind =] def Advance.Within (L : Limits) : Advance → Prop
  | .item v | .done v => v.Within L

/-- An iterator may be taken up in another way where an exception is raised. -/
@[spec] theorem Run.catching_advance_spec {x : Run Advance} {handler : Address → Run Advance}
    (hx : ⦃W.inside⦄ x ⦃W.gives (Advance.Within L)⦄)
    (hh : ∀ e, L.address e → ⦃W.inside⦄ handler e ⦃W.gives (Advance.Within L)⦄) :
    ⦃W.inside⦄ catching x handler ⦃W.gives (Advance.Within L)⦄ :=
  gives_catching hx hh

/-- A body may leave off in another way where its run stops short. -/
@[spec] theorem Run.tryCatch_outcome_spec {x : Run Outcome} {handler : Stop → Run Outcome}
    (hx : ⦃W.inside⦄ x ⦃W.gives (Outcome.Within L)⦄)
    (hh : ∀ e, e.Within L → ⦃W.inside⦄ handler e ⦃W.gives (Outcome.Within L)⦄) :
    ⦃W.inside⦄ (MonadExceptOf.tryCatch x handler) ⦃W.gives (Outcome.Within L)⦄ :=
  W.gives_tryCatch hx hh

/-- Operations keep machines alike. -/
structure Ops.Within (W : Likeness L) (ops : Ops) : Prop where
  eval : ∀ {env e}, env.Within L → e.Within L →
    ⦃W.inside⦄ ops.eval env e ⦃W.gives (Value.Within L)⦄
  call : ∀ {f args named}, f.Within L → Value.AllWithin L args → named.Within L →
    ⦃W.inside⦄ ops.call f args named ⦃W.gives (Value.Within L)⦄
  resume : ∀ {env signal tasks}, env.Within L → signal.Within L → (∀ t ∈ tasks, t.Within L) →
    ⦃W.inside⦄ ops.resume env signal tasks ⦃W.gives (Outcome.Within L)⦄
  advance : ∀ {iterator sent}, iterator.Within L → sent.Within L →
    ⦃W.inside⦄ ops.advance iterator sent ⦃W.gives (Advance.Within L)⦄
  member : ∀ {v name}, v.Within L → ⦃W.inside⦄ ops.member v name ⦃W.gives (Value.Within L)⦄
  repr : ∀ {v}, v.Within L → ⦃W.inside⦄ ops.repr v ⦃W.stays⦄
  str : ∀ {v}, v.Within L → ⦃W.inside⦄ ops.str v ⦃W.stays⦄
  equal : ∀ {a b}, a.Within L → b.Within L → ⦃W.inside⦄ ops.equal a b ⦃W.stays⦄
  order : ∀ {op a b}, a.Within L → b.Within L →
    ⦃W.inside⦄ ops.order op a b ⦃W.gives (Value.Within L)⦄
  format : ∀ {v spec}, v.Within L → ⦃W.inside⦄ ops.format v spec ⦃W.stays⦄

attribute [spec] Ops.Within.eval Ops.Within.call Ops.Within.resume Ops.Within.advance Ops.Within.member
  Ops.Within.repr Ops.Within.str Ops.Within.equal Ops.Within.order Ops.Within.format

namespace Ops

variable {ops : Ops} (ho : ops.Within W) {v : Value}
include ho

@[spec] theorem special?_spec {name : String} {args : List Value} (h : v.Within L)
    (hargs : Value.AllWithin L args) :
    ⦃W.inside⦄ ops.special? v name args ⦃W.gives (Value.IfWithin L)⦄ := by
  mvcgen [special?] with grind

@[spec] theorem truthy_spec (h : v.Within L) : ⦃W.inside⦄ ops.truthy v ⦃W.stays⦄ := by
  mvcgen [truthy] with grind

theorem foldItems_spec {iterator : Value} {f : β → Value → Run β} {start : β} {P : β → Prop}
    (h : iterator.Within L) (hstart : P start)
    (hf : ∀ b v, P b → v.Within L → ⦃W.inside⦄ f b v ⦃W.gives P⦄) :
    ⦃W.inside⦄ ops.foldItems iterator f start ⦃W.gives P⦄ := by
  have go (n : Nat) : ∀ b, P b → ⦃W.inside⦄ foldItems.go ops iterator f n b ⦃W.gives P⦄ := by
    induction n with
    | zero =>
      intro b hb
      mvcgen [foldItems.go]
    | succ n ih =>
      intro b hb
      mvcgen [foldItems.go, hf, ih] with grind
  exact go ops.steps start hstart

@[spec] theorem foldItems_stays_spec {iterator : Value} {f : β → Value → Run β} {start : β}
    (h : iterator.Within L) (hf : ∀ b v, v.Within L → ⦃W.inside⦄ f b v ⦃W.stays⦄) :
    ⦃W.inside⦄ ops.foldItems iterator f start ⦃W.stays⦄ :=
  W.stays_of_gives (foldItems_spec ho h (P := fun _ => True) trivial fun b v _ hv =>
    W.gives_of_stays (hf b v hv))

@[spec high] theorem foldItems_value_spec {iterator start : Value} {f : Value → Value → Run Value}
    (h : iterator.Within L) (hstart : start.Within L)
    (hf : ∀ b v : Value, b.Within L → v.Within L → ⦃W.inside⦄ f b v ⦃W.gives (Value.Within L)⦄) :
    ⦃W.inside⦄ ops.foldItems iterator f start ⦃W.gives (Value.Within L)⦄ :=
  foldItems_spec ho h hstart hf

@[spec] theorem drain_spec {iterator : Value} (h : iterator.Within L) :
    ⦃W.inside⦄ ops.drain iterator ⦃W.gives fun xs => Value.AllWithin L xs.toList⦄ := by
  refine foldItems_spec ho h trivial fun acc v hacc hv => ?_
  mvcgen with simp_all

end Ops

end Stencil.Script
