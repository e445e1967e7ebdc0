import Mathlib
import Stencil.Proofs.Reach.Failures
import Stencil.Proofs.Script.Running

/-!
# Machines that a run cannot tell apart

A computation is run on two machines at once. Such a pair of runs has a postcondition when both runs give
the same value, or both stop short for the same reason, and the two machines that they leave are as the
postcondition says. Pairs of runs have weakest preconditions, which follow the computation step by step:
where a step gives the same value on both machines, the next step is the same one on both.

Two machines are alike for runs within limits when such a run finds the same objects on both, and when
what it does to them leaves them alike. A computation that keeps machines alike gives the same value on
both or stops short for the same reason, and what it gives is within the limits again.
-/

namespace Stencil.Script

/-! ## Runs side by side -/

open Std.Do

namespace Pairs

variable {α β : Type}

/-- What postconditions of a pair of runs speak of: a value or a reason, and two machines. -/
abbrev Shape : PostShape :=
  .except Stop (.arg (Machine × Machine) .pure)

/-- Two runs end alike and leave machines as a postcondition says. -/
def Ends (Q : PostCond α Shape) : EStateM.Result Stop Machine α → EStateM.Result Stop Machine α → Prop
  | .ok a m, .ok b n => a = b ∧ (Q.1 a (m, n)).down
  | .error e m, .error f n => e = f ∧ (Q.2.1 e (m, n)).down
  | _, _ => False

theorem ends_and {Q R : PostCond α Shape} {r s : EStateM.Result Stop Machine α} :
    Ends (Q ∧ₚ R) r s ↔ Ends Q r s ∧ Ends R r s := by
  cases r <;> cases s <;> simp [Ends] <;> tauto

/-- The weakest precondition of a pair of runs. -/
def trans (x : Run α) : PredTrans Shape α where
  trans Q p := ⌜Ends Q (x.run p.1) (x.run p.2)⌝
  conjunctiveRaw Q R := by
    refine SPred.bientails.of_eq (funext fun p => ULift.ext _ _ (propext ?_))
    exact ends_and

/-- Computations on the machine are taken as pairs of runs. -/
scoped instance (priority := 2000) : WP Run Shape where
  wp := trans

/-- A pair of runs has a postcondition when all pairs of machines that meet the precondition end so. -/
theorem triple_iff {x : Run α} {P : Assertion Shape} {Q : PostCond α Shape} :
    ⦃P⦄ x ⦃Q⦄ ↔ ∀ m n, (P (m, n)).down → Ends Q (x.run m) (x.run n) :=
  ⟨fun h m n hp => Triple.iff.1 h (m, n) hp, fun h => Triple.iff.2 fun p hp => h p.1 p.2 hp⟩

section

variable {Q : PostCond β Shape}

@[spec 2000] theorem pure_spec {b : β} : ⦃Q.1 b⦄ (pure b : Run β) ⦃Q⦄ :=
  triple_iff.2 fun _ _ h => ⟨rfl, h⟩

@[spec 2000] theorem throw_spec {e : Stop} : ⦃Q.2.1 e⦄ (throw e : Run β) ⦃Q⦄ :=
  triple_iff.2 fun _ _ h => ⟨rfl, h⟩

/-- The second of two steps starts from where the first one ends. -/
@[spec 2000] theorem bind_spec {x : Run α} {f : α → Run β} :
    ⦃wp⟦x⟧ (fun a => wp⟦f a⟧ Q, Q.2)⦄ (x >>= f) ⦃Q⦄ := by
  refine triple_iff.2 fun m n h => ?_
  have h : Ends (fun a => wp⟦f a⟧ Q, Q.2) (x.run m) (x.run n) := h
  rw [EStateM.run_bind, EStateM.run_bind]
  cases hm : x.run m <;> cases hn : x.run n <;> rw [hm, hn] at h
  case ok.ok =>
    obtain ⟨rfl, h⟩ := h
    exact h
  case error.error => exact h
  all_goals exact h.elim

@[spec 2000] theorem map_spec {x : Run α} {f : α → β} :
    ⦃wp⟦x⟧ (fun a => Q.1 (f a), Q.2)⦄ (f <$> x) ⦃Q⦄ := by
  refine triple_iff.2 fun m n h => ?_
  have h : Ends (fun a => Q.1 (f a), Q.2) (x.run m) (x.run n) := h
  rw [EStateM.run_map, EStateM.run_map]
  cases hm : x.run m <;> cases hn : x.run n <;> rw [hm, hn] at h
  case ok.ok =>
    obtain ⟨rfl, h⟩ := h
    exact ⟨rfl, h⟩
  case error.error => exact h
  all_goals exact h.elim

end

end Pairs

end Stencil.Script

namespace Stencil.Script

open Std.Do
open scoped Pairs

/-! ## Machines -/

namespace Machine

/-- The entries of a dictionary; another object counts as empty. -/
def entries (m : Machine) (a : Address) : Entries :=
  match m.object? a with
  | some (.dict es) => es
  | _ => []

/-- The value of a global name. -/
def global? (m : Machine) (id : String) : Option Value :=
  (m.entries m.globals).named? id

/-- The machine with another value of a global name. -/
def writeGlobal (m : Machine) (id : String) (v : Value) : Machine :=
  { m with heap := m.heap.modify m.globals.index fun
      | .dict es => .dict (es.insert (.str id) v)
      | o => o }

/-- The machine without a global name. -/
def removeGlobal (m : Machine) (id : String) : Machine :=
  m.put m.globals (.dict ((m.entries m.globals).erase (.str id)))

end Machine

/-- Two machines have equally many objects, and the same ones within limits. -/
structure Machine.Agree (L : Limits) (m n : Machine) : Prop where
  size : m.heap.size = n.heap.size
  object : ∀ a, L.address a → m.object? a = n.object? a ∧ Object.IfWithin L (m.object? a)

namespace Machine.Agree

variable {L : Limits} {m n : Machine} {o : Object}

theorem push (h : Machine.Agree L m n) (ho : o.Within L) : Machine.Agree L (m.push o) (n.push o) := by
  refine ⟨by rw [size_push, size_push, h.size], fun a ha => ?_⟩
  rw [object?_push, object?_push, h.size]
  split
  · exact ⟨rfl, ho⟩
  · exact h.object a ha

theorem put (h : Machine.Agree L m n) (a : Address) (ho : o.Within L) :
    Machine.Agree L (m.put a o) (n.put a o) := by
  refine ⟨by rw [size_put, size_put, h.size], fun b hb => ?_⟩
  obtain ⟨heq, hin⟩ := h.object b hb
  rw [object?_put, object?_put, ← heq]
  split
  · refine ⟨rfl, ?_⟩
    cases m.object? b with
    | none => trivial
    | some _ => exact ho
  · exact ⟨rfl, hin⟩

end Machine.Agree

/-- Machines that runs within limits cannot tell apart. -/
structure Likeness (L : Limits) where
  alike : Machine → Machine → Prop
  line : ∀ {m n}, alike m n → m.line = n.line ∧ (m.line = 0 ∨ L.line m.line)
  onLine : ∀ {m n l}, alike m n → L.line l → alike (m.onLine l) (n.onLine l)
  back : ∀ {m n m' n'}, alike m n → alike m' n' → alike (m'.onLine m.line) (n'.onLine n.line)
  depth : ∀ {m n}, alike m n → m.depth = n.depth
  atDepth : ∀ {m n} d, alike m n → alike { m with depth := d } { n with depth := d }
  handling : ∀ {m n}, alike m n → m.handling = n.handling ∧ ∀ e ∈ m.handling, L.address e
  handle : ∀ {m n es}, alike m n → (∀ e ∈ es, L.address e) →
    alike { m with handling := es } { n with handling := es }
  showing : ∀ {m n}, alike m n → m.showing = n.showing
  show' : ∀ {m n} s, alike m n → alike { m with showing := s } { n with showing := s }
  print : ∀ {m n} t, alike m n →
    alike { m with printed := m.printed.push t } { n with printed := n.printed.push t }
  fresh : ∀ {m n}, alike m n → m.fresh = n.fresh ∧ L.address m.fresh
  object : ∀ {m n a}, alike m n → L.address a →
    m.object? a = n.object? a ∧ Object.IfWithin L (m.object? a)
  push : ∀ {m n o}, alike m n → o.Within L → alike (m.push o) (n.push o)
  put : ∀ {m n a o}, alike m n → L.address a → o.Within L → alike (m.put a o) (n.put a o)
  global : ∀ {m n id}, alike m n → L.name id →
    m.global? id = n.global? id ∧ Value.IfWithin L (m.global? id)
  writeGlobal : ∀ {m n id v}, alike m n → L.name id → v.Within L →
    alike (m.writeGlobal id v) (n.writeGlobal id v)
  removeGlobal : ∀ {m n id}, alike m n → L.name id → (m.global? id).isSome →
    alike (m.removeGlobal id) (n.removeGlobal id)
  globals : ∀ {m n}, alike m n → L.whole → m.globals = n.globals ∧ L.address m.globals
  whole : L.name "globals" ∨ L.name "locals" → L.whole
  hidden : L.name Eval.hiddenSource
  binds : L.binds Eval.hiddenSource ∧ L.binds Class.hiddenName

/-- The exception that a computation stops for is within limits. -/
@[simp, grind =] def Stop.Within (L : Limits) : Stop → Prop
  | .raised e => L.address e
  | .exhausted => True

namespace Likeness

variable {L : Limits} (W : Likeness L) {α : Type}

/-- Two machines are alike. -/
abbrev inside : Assertion Pairs.Shape :=
  fun p => ⌜W.alike p.1 p.2⌝

/-- Two machines are still alike, and the value that is given has a property. -/
abbrev gives (P : α → Prop) : PostCond α Pairs.Shape :=
  post⟨fun a p => ⌜P a ∧ W.alike p.1 p.2⌝, fun e p => ⌜e.Within L ∧ W.alike p.1 p.2⌝⟩

/-- Two machines are still alike. -/
abbrev stays : PostCond α Pairs.Shape :=
  post⟨fun _ p => ⌜W.alike p.1 p.2⌝, fun e p => ⌜e.Within L ∧ W.alike p.1 p.2⌝⟩

/-- No value is given, and two machines are still alike. -/
abbrev fails : PostCond α Pairs.Shape :=
  post⟨fun _ _ => ⌜False⌝, fun e p => ⌜e.Within L ∧ W.alike p.1 p.2⌝⟩

variable {W} {x : Run α} {P : α → Prop}

/-- A computation keeps machines alike when it does the same to each of two that are. -/
theorem gives_of_run (h : ∀ m n, W.alike m n → Pairs.Ends (W.gives P) (x.run m) (x.run n)) :
    ⦃W.inside⦄ x ⦃W.gives P⦄ :=
  Pairs.triple_iff.2 h

theorem stays_of_run (h : ∀ m n, W.alike m n → Pairs.Ends W.stays (x.run m) (x.run n)) :
    ⦃W.inside⦄ x ⦃W.stays⦄ :=
  Pairs.triple_iff.2 h

theorem fails_of_run (h : ∀ m n, W.alike m n → Pairs.Ends W.fails (x.run m) (x.run n)) :
    ⦃W.inside⦄ x ⦃W.fails⦄ :=
  Pairs.triple_iff.2 h

/-- A computation that gives no value may be taken to give any. -/
theorem gives_of_fails (h : ⦃W.inside⦄ x ⦃W.fails⦄) : ⦃W.inside⦄ x ⦃W.gives P⦄ := by
  refine W.gives_of_run fun m n hw => ?_
  have hx := Pairs.triple_iff.1 h m n hw
  cases hm : x.run m <;> cases hn : x.run n <;> rw [hm, hn] at hx
  case error.error => exact hx
  case ok.ok => exact hx.2.elim
  all_goals exact hx.elim

/-- What a computation gives may be left aside. -/
theorem stays_of_gives (h : ⦃W.inside⦄ x ⦃W.gives P⦄) : ⦃W.inside⦄ x ⦃W.stays⦄ := by
  refine W.stays_of_run fun m n hw => ?_
  have hx := Pairs.triple_iff.1 h m n hw
  cases hm : x.run m <;> cases hn : x.run n <;> rw [hm, hn] at hx
  case error.error => exact hx
  case ok.ok => exact ⟨hx.1, hx.2.2⟩
  all_goals exact hx.elim

theorem stays_of_fails (h : ⦃W.inside⦄ x ⦃W.fails⦄) : ⦃W.inside⦄ x ⦃W.stays⦄ :=
  stays_of_gives (gives_of_fails (P := fun _ => True) h)

theorem gives_of_stays (h : ⦃W.inside⦄ x ⦃W.stays⦄) : ⦃W.inside⦄ x ⦃W.gives fun _ => True⦄ := by
  refine W.gives_of_run fun m n hw => ?_
  have hx := Pairs.triple_iff.1 h m n hw
  cases hm : x.run m <;> cases hn : x.run n <;> rw [hm, hn] at hx
  case error.error => exact hx
  case ok.ok => exact ⟨hx.1, trivial, hx.2⟩
  all_goals exact hx.elim

/-- What a computation gives may be taken less exactly. -/
theorem gives_mono {P' : α → Prop} (h : ⦃W.inside⦄ x ⦃W.gives P⦄) (hp : ∀ a, P a → P' a) :
    ⦃W.inside⦄ x ⦃W.gives P'⦄ := by
  refine W.gives_of_run fun m n hw => ?_
  have hx := Pairs.triple_iff.1 h m n hw
  cases hm : x.run m <;> cases hn : x.run n <;> rw [hm, hn] at hx
  case error.error => exact hx
  case ok.ok => exact ⟨hx.1, hp _ hx.2.1, hx.2.2⟩
  all_goals exact hx.elim

variable {β : Type} {f : α → Run β} {Q : β → Prop}

/-- Of two steps that keep machines alike, the second may depend on what the first one gives. -/
theorem gives_bind (hx : ⦃W.inside⦄ x ⦃W.gives P⦄) (hf : ∀ a, P a → ⦃W.inside⦄ f a ⦃W.gives Q⦄) :
    ⦃W.inside⦄ (x >>= f) ⦃W.gives Q⦄ := by
  refine W.gives_of_run fun m n hw => ?_
  have hx := Pairs.triple_iff.1 hx m n hw
  rw [EStateM.run_bind, EStateM.run_bind]
  cases hm : x.run m <;> cases hn : x.run n <;> rw [hm, hn] at hx
  case error.error => exact hx
  case ok.ok =>
    obtain ⟨rfl, hp, hw'⟩ := hx
    exact Pairs.triple_iff.1 (hf _ hp) _ _ hw'
  all_goals exact hx.elim

/-- A handler takes over where a computation stops short. -/
theorem gives_tryCatch {handler : Stop → Run α} (hx : ⦃W.inside⦄ x ⦃W.gives P⦄)
    (hh : ∀ e, e.Within L → ⦃W.inside⦄ handler e ⦃W.gives P⦄) :
    ⦃W.inside⦄ (tryCatch x handler) ⦃W.gives P⦄ := by
  refine W.gives_of_run fun m n hw => ?_
  have hx := Pairs.triple_iff.1 hx m n hw
  rw [Run.run_tryCatch, Run.run_tryCatch]
  cases hm : x.run m <;> cases hn : x.run n <;> rw [hm, hn] at hx
  case ok.ok => exact hx
  case error.error =>
    obtain ⟨rfl, he, hw'⟩ := hx
    exact Pairs.triple_iff.1 (hh _ he) _ _ hw'
  all_goals exact hx.elim

/-- Machines that are alike may be read where they agree. -/
theorem gives_read {g : Machine → α} (h : ∀ {m n}, W.alike m n → g m = g n ∧ P (g m)) :
    ⦃W.inside⦄ (do let m ← get; return g m : Run α) ⦃W.gives P⦄ :=
  W.gives_of_run fun _ _ hw => ⟨(h hw).1, (h hw).2, hw⟩

/-- The next step may depend on what alike machines agree on. -/
theorem gives_get {γ : Type} {g : Machine → γ} {f : γ → Run α} {R : γ → Prop}
    (h : ∀ {m n}, W.alike m n → g m = g n ∧ R (g m))
    (hf : ∀ c, R c → ⦃W.inside⦄ f c ⦃W.gives P⦄) :
    ⦃W.inside⦄ (do let m ← get; f (g m) : Run α) ⦃W.gives P⦄ := by
  refine W.gives_of_run fun m n hw => ?_
  obtain ⟨heq, hr⟩ := h hw
  have hrun := Pairs.triple_iff.1 (hf _ hr) m n hw
  rw [EStateM.run_bind, EStateM.run_bind, EStateM.run_get, EStateM.run_get]
  show Pairs.Ends _ ((f (g m)).run m) ((f (g n)).run n)
  rwa [← heq]

end Likeness

namespace Run

variable {L : Limits} {W : Likeness L} {α : Type} {a : Address}

@[spec] theorem alloc_spec {o : Object} (h : o.Within L) :
    ⦃W.inside⦄ alloc o ⦃W.gives fun v => ∃ a, v = .ref a ∧ L.address a⦄ := by
  refine W.gives_of_run fun m n hw => ?_
  obtain ⟨hf, ha⟩ := W.fresh hw
  exact ⟨congrArg Value.ref hf, ⟨_, rfl, ha⟩, W.push hw h⟩

@[spec] theorem object?_spec (ha : L.address a) :
    ⦃W.inside⦄ object? a ⦃W.gives (Object.IfWithin L)⦄ := by
  refine W.gives_of_run fun m n hw => ?_
  obtain ⟨hf, ho⟩ := W.object hw ha
  exact ⟨hf, ho, hw⟩

theorem run_entries_eq (a : Address) (m : Machine) : (entries a).run m = .ok (m.entries a) m := by
  unfold entries Machine.entries
  simp only [EStateM.run_bind, run_object?]
  cases m.object? a with
  | none => rfl
  | some o => cases o <;> rfl

@[spec] theorem store_spec {o : Object} (ha : L.address a) (h : o.Within L) :
    ⦃W.inside⦄ store a o ⦃W.stays⦄ :=
  W.stays_of_run fun _ _ hw => ⟨rfl, W.put hw ha h⟩

@[spec] theorem atLine_spec {l : Nat} (h : L.line l) : ⦃W.inside⦄ atLine l ⦃W.stays⦄ :=
  W.stays_of_run fun _ _ hw => ⟨rfl, W.onLine hw h⟩

/-- Changing an object that is not there changes nothing. -/
theorem run_change_none {m : Machine} (h : m.object? a = none) (f : Object → Object) :
    (change a f).run m = .ok () m := by
  have hheap : m.heap.modify a.index f = m.heap := by
    refine Array.ext_getElem? fun i => ?_
    rw [Array.getElem?_modify]
    split
    · next hi => rw [← hi, ← Machine.object?, h, Option.map_none]
    · rfl
  change EStateM.Result.ok () { m with heap := m.heap.modify a.index f } = _
  rw [hheap]

@[spec] theorem change_spec {f : Object → Object} (ha : L.address a)
    (hf : ∀ o : Object, o.Within L → (f o).Within L) : ⦃W.inside⦄ change a f ⦃W.stays⦄ := by
  refine W.stays_of_run fun m n hw => ?_
  obtain ⟨heq, ho⟩ := W.object hw ha
  cases hm : m.object? a with
  | none =>
    rw [run_change_none hm, run_change_none (heq.symm.trans hm)]
    exact ⟨rfl, hw⟩
  | some o =>
    rw [run_change hm, run_change (heq.symm.trans hm)]
    exact ⟨rfl, W.put hw ha (hf o (by rwa [hm] at ho))⟩

/-! ### Failing -/

/-- The machine on which an exception that was not raised before keeps the line. -/
def originMachine (m : Machine) (e : Address) : Machine :=
  match m.object? e with
  | some (.instance i) =>
    if i.origin.isNone then m.put e (.instance { i with origin := some m.line }) else m
  | _ => m

theorem run_mark (m : Machine) (e : Address) : (mark e).run m = .ok () (originMachine m e) := by
  unfold mark originMachine
  simp only [EStateM.run_bind, EStateM.run_get, Machine.object?]
  split
  · split <;> simp [*]
  · simp

theorem run_raise (m : Machine) (e : Address) :
    (raise e : Run α).run m = .error (.raised e) (originMachine m e) := by
  rw [raise, EStateM.run_bind, run_mark]
  rfl

@[spec] theorem raise_spec (ha : L.address a) : ⦃W.inside⦄ (raise a : Run α) ⦃W.fails⦄ := by
  refine W.fails_of_run fun m n hw => ?_
  obtain ⟨heq, ho⟩ := W.object hw ha
  obtain ⟨hl, hline⟩ := W.line hw
  rw [run_raise, run_raise]
  refine ⟨rfl, ha, ?_⟩
  show W.alike (originMachine m a) (originMachine n a)
  rw [originMachine, originMachine, ← heq, ← hl]
  split
  · next i hi =>
      rw [hi] at ho
      split
      · exact W.put hw ha (by grind)
      · exact hw
  · exact hw

@[spec] theorem fail_spec {f : Failure} (h : Value.AllWithin L f.args) :
    ⦃W.inside⦄ (fail f : Run α) ⦃W.fails⦄ := by
  refine W.fails_of_run fun m n hw => ?_
  obtain ⟨hf, ha⟩ := W.fresh hw
  obtain ⟨hl, hline⟩ := W.line hw
  let o (l : Nat) : Object := .instance ⟨.kind (.exception f.kind), [], f.args, some l⟩
  have ho : (o m.line).Within L := by grind
  have hpush : W.alike (m.push (o m.line)) (n.push (o n.line)) := by
    rw [← hl]
    exact W.push hw ho
  exact ⟨congrArg Stop.raised hf, ha, hpush⟩

@[spec] theorem failWith_spec {kind : ExceptionKind} {message : String} :
    ⦃W.inside⦄ (failWith kind message : Run α) ⦃W.fails⦄ :=
  fail_spec ⟨trivial, trivial⟩

@[spec] theorem typeError_spec {message : String} :
    ⦃W.inside⦄ (typeError message : Run α) ⦃W.fails⦄ :=
  fail_spec ⟨trivial, trivial⟩

@[spec] theorem valueError_spec {message : String} :
    ⦃W.inside⦄ (valueError message : Run α) ⦃W.fails⦄ :=
  fail_spec ⟨trivial, trivial⟩

@[spec] theorem lift_spec {x : Except Failure α} (h : FailsWithin L x) :
    ⦃W.inside⦄ (lift x : Run α) ⦃W.gives fun a => x = .ok a⦄ := by
  cases x with
  | ok a => exact W.gives_of_run fun _ _ hw => ⟨rfl, rfl, hw⟩
  | error f => exact W.gives_of_fails (fail_spec (h f rfl))

/-! ### Calls -/

theorem run_nested (x : Run α) (m : Machine) :
    (nested x).run m =
      if depthLimit ≤ m.depth then
        (failWith .recursionError "maximum recursion depth exceeded").run m
      else
        match x.run { m with depth := m.depth + 1 } with
        | .ok a m' => .ok a { m' with line := m.line, depth := m.depth }
        | .error e m' => .error e { m' with line := m.line, depth := m.depth } := by
  unfold nested
  simp only [EStateM.run_bind, EStateM.run_get]
  split
  · rfl
  · simp only [EStateM.run_bind, EStateM.run_set, run_tryCatch]
    cases x.run { m with depth := m.depth + 1 } <;> rfl

@[spec] theorem nested_spec {x : Run α} {P : α → Prop} (h : ⦃W.inside⦄ x ⦃W.gives P⦄) :
    ⦃W.inside⦄ nested x ⦃W.gives P⦄ := by
  refine W.gives_of_run fun m n hw => ?_
  have hdepth := W.depth hw
  rw [run_nested, run_nested, ← hdepth]
  split
  · exact Pairs.triple_iff.1 (W.gives_of_fails failWith_spec) m n hw
  · have hx := Pairs.triple_iff.1 h _ _ (W.atDepth (m.depth + 1) hw)
    cases hm : x.run { m with depth := m.depth + 1 } <;>
      cases hn : x.run { n with depth := m.depth + 1 } <;> rw [hm, hn] at hx
    case ok.ok =>
      obtain ⟨rfl, hp, hw'⟩ := hx
      exact ⟨rfl, hp, W.back hw (W.atDepth m.depth hw')⟩
    case error.error =>
      obtain ⟨rfl, he, hw'⟩ := hx
      exact ⟨rfl, he, W.back hw (W.atDepth m.depth hw')⟩
    all_goals exact hx.elim

end Run

end Stencil.Script
