import Stencil.Script.Interpreter

/-!
# Computations on the machine

What the basic computations on the machine give and how they leave it. A machine that a computation
leaves differs from the one before in its line, in an object that was replaced, or in a new object.

An exception of a plain kind that was raised with a message is written as the message.
-/

namespace Stencil.Script

/-! ## Machines -/

namespace Machine

/-- The machine that works on a line. -/
def onLine (m : Machine) (line : Nat) : Machine :=
  { m with line }

/-- The machine with one more object. -/
def push (m : Machine) (o : Object) : Machine :=
  { m with heap := m.heap.push o }

/-- The machine with another object at an address. -/
def put (m : Machine) (a : Address) (o : Object) : Machine :=
  { m with heap := m.heap.setIfInBounds a.index o }

/-- The object at an address. -/
def object? (m : Machine) (a : Address) : Option Object :=
  m.heap[a.index]?

/-- The address of the next object. -/
def fresh (m : Machine) : Address :=
  ⟨m.heap.size⟩

variable (m : Machine) (a b : Address) (o : Object) (line : Nat)

@[simp] theorem onLine_onLine (line' : Nat) : (m.onLine line').onLine line = m.onLine line := rfl

@[simp] theorem heap_onLine : (m.onLine line).heap = m.heap := rfl

@[simp] theorem globals_onLine : (m.onLine line).globals = m.globals := rfl

@[simp] theorem line_onLine : (m.onLine line).line = line := rfl

@[simp] theorem showing_onLine : (m.onLine line).showing = m.showing := rfl

@[simp] theorem object?_onLine : (m.onLine line).object? a = m.object? a := rfl

@[simp] theorem fresh_onLine : (m.onLine line).fresh = m.fresh := rfl

@[simp] theorem globals_push : (m.push o).globals = m.globals := rfl

@[simp] theorem line_push : (m.push o).line = m.line := rfl

@[simp] theorem showing_push : (m.push o).showing = m.showing := rfl

@[simp] theorem globals_put : (m.put a o).globals = m.globals := rfl

@[simp] theorem size_push : (m.push o).heap.size = m.heap.size + 1 := Array.size_push o

@[simp] theorem size_put : (m.put a o).heap.size = m.heap.size := Array.size_setIfInBounds

@[simp] theorem line_put : (m.put a o).line = m.line := rfl

@[simp] theorem showing_put : (m.put a o).showing = m.showing := rfl

/-- The new object is at the next address. -/
@[simp] theorem object?_push_fresh : (m.push o).object? m.fresh = some o :=
  Array.getElem?_push_size

/-- The objects with a new one. -/
theorem object?_push : (m.push o).object? a = if a.index = m.heap.size then some o else m.object? a :=
  Array.getElem?_push

/-- The objects with one that was replaced. -/
theorem object?_put :
    (m.put a o).object? b = if a.index = b.index then (m.object? b).map fun _ => o else m.object? b := by
  rw [object?, object?, put, Array.getElem?_setIfInBounds]
  split
  · next heq =>
    split
    · next hlt => rw [← heq, Array.getElem?_eq_getElem hlt, Option.map_some]
    · next hnot => rw [← heq, Array.getElem?_eq_none (Nat.le_of_not_lt hnot), Option.map_none]
  · rfl

/-- The objects are at the addresses up to the next. -/
theorem index_lt {m : Machine} {a : Address} {o : Object} (h : m.object? a = some o) :
    a.index < m.heap.size :=
  (Array.getElem?_eq_some_iff.1 h).1

/-- There are no objects from the next address on. -/
theorem object?_of_le {m : Machine} {a : Address} (h : m.heap.size ≤ a.index) : m.object? a = none :=
  Array.getElem?_eq_none h

/-- A new object leaves the others as they are. -/
theorem object?_push_of_lt (h : a.index < m.heap.size) : (m.push o).object? a = m.object? a := by
  rw [object?, push, Array.getElem?_push, if_neg (Nat.ne_of_lt h)]
  rfl

/-- An object that was replaced is the other one. -/
theorem object?_put_self {m : Machine} {a : Address} {o' : Object} (h : m.object? a = some o')
    (o : Object) : (m.put a o).object? a = some o := by
  rw [object?, put, Array.getElem?_setIfInBounds_self_of_lt (index_lt h)]

/-- Replacing an object leaves the others as they are. -/
theorem object?_put_of_ne (h : a ≠ b) : (m.put a o).object? b = m.object? b := by
  have hne : a.index ≠ b.index := fun heq => h (by cases a; cases b; cases heq; rfl)
  rw [object?, put, Array.getElem?_setIfInBounds_ne hne]
  rfl

/-- Replacing an object by itself changes nothing. -/
theorem put_self {m : Machine} {a : Address} {o : Object} (h : m.object? a = some o) :
    m.put a o = m := by
  obtain ⟨hlt, hget⟩ := Array.getElem?_eq_some_iff.1 h
  have hheap : m.heap.setIfInBounds a.index o = m.heap := by
    rw [Array.setIfInBounds_def, dif_pos hlt, ← hget, Array.set_getElem_self]
  rw [put, hheap]

/-- Of two objects put at one address the second stays. -/
theorem put_put (o' : Object) : (m.put a o').put a o = m.put a o := by
  rw [put, put, put, Array.setIfInBounds_setIfInBounds]

/-- Replacing the newest object is making another one in its place. -/
theorem put_push_fresh (o' : Object) : (m.push o').put m.fresh o = m.push o := by
  rw [put, push, push, fresh, Array.setIfInBounds_def, dif_pos (by simp)]
  simp [Array.set_push]

/-- Two addresses with different objects differ. -/
theorem ne_of_object? {m : Machine} {a b : Address} {o o' : Object} (ha : m.object? a = some o)
    (hb : m.object? b = some o') (h : o ≠ o') : a ≠ b := by
  rintro rfl
  exact h (Option.some.inj (ha.symm.trans hb))

end Machine

/-! ## Computations -/

namespace Run

variable {α : Type} (m : Machine) (a : Address)

@[simp] theorem run_throw (e : Stop) : EStateM.run (throw e : Run α) m = .error e m := rfl

/-- A computation and what is done when it stops short. -/
@[simp] theorem run_tryCatch (x : Run α) (handler : Stop → Run α) :
    EStateM.run (tryCatch x handler) m = match EStateM.run x m with
      | .ok r m' => .ok r m'
      | .error e m' => EStateM.run (handler e) m' := by
  change EStateM.tryCatch x handler m = _
  delta EStateM.tryCatch EStateM.run
  dsimp only
  cases x m <;> rfl

/-- A computation that gives a value needs no handler. -/
theorem run_catching_ok {x : Run α} {handler : Address → Run α} {m m' : Machine} {r : α}
    (h : x.run m = .ok r m') : (catching x handler).run m = .ok r m' := by
  rw [catching, run_tryCatch, h]

@[simp] theorem run_object? : (object? a).run m = .ok (m.object? a) m := rfl

@[simp] theorem run_atLine (line : Nat) : (atLine line).run m = .ok () (m.onLine line) := rfl

@[simp] theorem run_alloc (o : Object) : (alloc o).run m = .ok (.ref m.fresh) (m.push o) := rfl

@[simp] theorem run_store (o : Object) : (store a o).run m = .ok () (m.put a o) := rfl

/-- Changing an object replaces it. -/
theorem run_change {m : Machine} {a : Address} {o : Object} (h : m.object? a = some o)
    (f : Object → Object) : (change a f).run m = .ok () (m.put a (f o)) := by
  have hheap : m.heap.modify a.index f = m.heap.setIfInBounds a.index (f o) := by
    refine Array.ext_getElem? fun i => ?_
    rw [Array.getElem?_modify, Array.getElem?_setIfInBounds]
    split
    · next hi => rw [← hi, if_pos (Machine.index_lt h), ← Machine.object?, h, Option.map_some]
    · rfl
  change EStateM.Result.ok () { m with heap := m.heap.modify a.index f } = _
  rw [hheap]
  rfl

/-- The entries of a dictionary. -/
theorem run_entries {m : Machine} {a : Address} {es : Entries} (h : m.object? a = some (.dict es)) :
    (entries a).run m = .ok es m := by
  simp [entries, h]

/-- The items of a list. -/
theorem run_items {m : Machine} {a : Address} {xs : Array Value} (h : m.object? a = some (.list xs)) :
    (items a).run m = .ok xs m := by
  simp [items, h]

/-- The object of an exception with a message. -/
def exceptionObject (kind : ExceptionKind) (message : String) (line : Nat) : Object :=
  .instance ⟨.kind (.exception kind), [], [.str message], some line⟩

/-- Raising an exception with a message. -/
theorem run_failWith (kind : ExceptionKind) (message : String) :
    (failWith kind message : Run α).run m =
      .error (.raised m.fresh) (m.push (exceptionObject kind message m.line)) := rfl

end Run

end Stencil.Script

namespace Stencil.Script

/-! ## Raised exceptions -/

/-- Whether exceptions of a kind are among those that templates may hold back, and are written as their
message. -/
structure ExceptionKind.IsPlain (kind : ExceptionKind) : Prop where
  isBase : (Kind.exception kind).isA (.exception .baseException)
  isException : (Kind.exception kind).isA (.exception .exception)
  notKey : (Kind.exception kind).isA (.exception .keyError) = false

section

variable {m : Machine} {e : Address} {kind : ExceptionKind} {message : String} {line : Nat}

/-- Whether a kind is another one or belongs to it. -/
theorem run_isSubclass_kind (k l : Kind) (m : Machine) :
    (Run.isSubclass (.kind k) (.kind l)).run m = .ok (k.isA l) m := by
  have hany (ks : List Kind) : (ks.map Value.kind).any (·.same (.kind l)) = ks.contains l := by
    induction ks with
    | nil => rfl
    | cons k ks ih =>
        rw [List.map_cons, List.any_cons, List.contains_cons, ih]
        congr 1
        rw [Value.same, BEq.comm]
  rw [Kind.isA, ← hany]
  rfl

/-- The class of an exception of a built-in kind. -/
theorem run_exceptionClass {k : Kind} {members : Members} {args : List Value} {origin : Option Nat}
    (h : m.object? e = some (.instance ⟨.kind k, members, args, origin⟩)) :
    (Run.exceptionClass e).run m = .ok (.kind k) m := by
  rw [Run.exceptionClass, Run.classOf, EStateM.run_bind, Run.run_object?, h]
  rfl

/-- A plain exception is one that templates may hold back. -/
theorem run_isException (h : m.object? e = some (Run.exceptionObject kind message line))
    (hkind : kind.IsPlain) : (Run.isException e .exception).run m = .ok true m := by
  rw [Run.isException, EStateM.run_bind, run_exceptionClass h]
  exact (run_isSubclass_kind _ _ m).trans (by rw [hkind.isException])

/-- The built-in kinds have no members that scripts define. -/
theorem run_userMember_kind (k : Kind) (name : String) (m : Machine) :
    (Run.userMember? (.kind k) name).run m = .ok none m := by
  have hnone (f : Value → Option Value) (hf : ∀ k, f (.kind k) = none) (ks : List Kind) :
      (ks.map Value.kind).findSome? f = none := by
    rw [List.findSome?_eq_none_iff]
    intro v hv
    obtain ⟨k, -, rfl⟩ := List.mem_map.1 hv
    exact hf k
  exact congrArg (EStateM.Result.ok · m) (hnone _ (fun _ => rfl) k.ancestors)

/-- A built-in kind of exceptions defines no methods of its own. -/
theorem run_special_exception {k : Kind} {members : Members} {values : List Value}
    {origin : Option Nat} (h : m.object? e = some (.instance ⟨.kind k, members, values, origin⟩))
    (ops : Ops) (name : String) (args : List Value) :
    (ops.special? (.ref e) name args).run m = .ok none m := by
  have hspecial : (Run.special? (.ref e) name).run m = .ok none m := by
    rw [Run.special?, EStateM.run_bind, Run.run_object?, h]
    exact run_userMember_kind k name m
  rw [Ops.special?, EStateM.run_bind, hspecial]
  rfl

/-- A raised exception is shown as its class with the message. -/
theorem run_repr_exception (h : m.object? e = some (Run.exceptionObject kind message line))
    (hkind : kind.IsPlain) {n : Nat} (hn : 2 ≤ n) :
    ((operations n).repr (.ref e)).run m =
      .ok (kind.name ++ "(" ++ Show.joined ", " [Text.quotedString message] ++ ")") m := by
  obtain ⟨n, rfl⟩ := Nat.exists_eq_add_of_le' hn
  have hbase : (Run.isExceptionClass (.kind (.exception kind))).run m = .ok true m := by
    rw [Run.isExceptionClass, run_isSubclass_kind, hkind.isBase]
  change (Show.object (operations (n + 1)) e).run m = _
  rw [Show.object, EStateM.run_bind, Run.run_object?, h]
  dsimp only [Run.exceptionObject]
  rw [Show.objectOf, EStateM.run_bind, run_special_exception h]
  dsimp only
  rw [EStateM.run_bind, hbase]
  rfl

/-- A raised exception is written as its message. -/
theorem run_str_exception (h : m.object? e = some (Run.exceptionObject kind message line))
    (hkind : kind.IsPlain) {n : Nat} (hn : 2 ≤ n) :
    ((operations n).str (.ref e)).run m = .ok message m := by
  obtain ⟨n, rfl⟩ := Nat.exists_eq_add_of_le' hn
  have hbase : (Run.isExceptionClass (.kind (.exception kind))).run m = .ok true m := by
    rw [Run.isExceptionClass, run_isSubclass_kind, hkind.isBase]
  have hkey := run_isSubclass_kind (.exception kind) (.exception .keyError) m
  rw [hkind.notKey] at hkey
  change (Show.str (operations (n + 1)) (.ref e)).run m = _
  rw [Show.str, EStateM.run_bind, Run.run_object?, h]
  dsimp only [Run.exceptionObject]
  rw [EStateM.run_bind, run_special_exception h]
  dsimp only
  rw [EStateM.run_bind, hbase]
  dsimp only
  rw [if_pos rfl, Show.exception]
  dsimp only
  rw [EStateM.run_bind, hkey]
  rfl

end

end Stencil.Script
