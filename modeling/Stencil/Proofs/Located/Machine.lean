import Stencil.Proofs.Located.Expressions
import Stencil.Proofs.Reach.Rendering

/-!
# Machines with code on lines of a kind

A machine is confined to lines of a kind when all code on it stands on such lines, exceptions were raised on
such lines first, and such a line is being worked on, but for what happened before the first line. Nothing
that a script on such lines does changes that (`confined_operations`). So the exception that ends it was
raised on a line of the kind (`exists_originIn`).
-/

namespace Stencil

open Script
open Std.Do
open scoped Pairs

/-! ## Machines -/

namespace Script

variable {P : Nat → Prop} {L : Limits}

mutual

/-- Where all addresses and the whole namespace are within limits, all values are. -/
theorem Value.within_of_whole (h : ∀ a, L.address a) (hwhole : L.whole) : (v : Value) → v.Within L
  | .none | .ellipsis | .notImplemented | .bool _ | .int _ | .float _ | .str _ | .bytes _
  | .range _ _ _ | .kind _ | .unbound _ _ | .foreign _ _ _ => trivial
  | .tuple vs => allWithin_of_whole h hwhole vs
  | .slice a b c =>
    ⟨within_of_whole h hwhole a, within_of_whole h hwhole b, within_of_whole h hwhole c⟩
  | .native _ => fun _ => hwhole
  | .method self _ => within_of_whole h hwhole self
  | .bound self f => ⟨within_of_whole h hwhole self, within_of_whole h hwhole f⟩
  | .view _ a | .ref a => h a
  | .wrapped _ f => within_of_whole h hwhole f
  | .behind cls self => ⟨within_of_whole h hwhole cls, within_of_whole h hwhole self⟩

/-- Where all addresses and the whole namespace are within limits, all values of a list are. -/
theorem Value.allWithin_of_whole (h : ∀ a, L.address a) (hwhole : L.whole) :
    (vs : List Value) → AllWithin L vs
  | [] => trivial
  | v :: vs => ⟨within_of_whole h hwhole v, allWithin_of_whole h hwhole vs⟩

end

@[simp] theorem Value.within_lines (v : Value) : v.Within (lineLimits P) :=
  within_of_whole (fun _ => trivial) trivial v

@[simp] theorem Value.allWithin_lines (vs : List Value) : AllWithin (lineLimits P) vs :=
  allWithin_of_whole (fun _ => trivial) trivial vs

@[simp] theorem Value.ifWithin_lines (v : Option Value) : IfWithin (lineLimits P) v := by
  cases v with
  | none => trivial
  | some v => exact v.within_lines

@[simp] theorem Entries.within_lines (es : Entries) : es.Within (lineLimits P) :=
  ⟨Value.allWithin_lines _, Value.allWithin_lines _⟩

@[simp] theorem Members.within_lines (ms : Members) : ms.Within (lineLimits P) :=
  Value.allWithin_lines _

/-- All code on a machine stands on lines of a kind. Such a line is being worked on, or none is yet. -/
structure Machine.Confined (P : Nat → Prop) (m : Machine) : Prop where
  line : m.line = 0 ∨ P m.line
  object : ∀ a, Object.IfWithin (lineLimits P) (m.object? a)

namespace Machine.Confined

variable {m : Machine} {o : Object}

/-- Another line, depth, or list of what is handled, written or printed. -/
theorem sameHeap {m' : Machine} (h : m.Confined P) (hheap : m'.heap = m.heap)
    (hline : m'.line = 0 ∨ P m'.line) : m'.Confined P := by
  refine ⟨hline, fun a => ?_⟩
  rw [Machine.object?, hheap]
  exact h.object a

theorem push (h : m.Confined P) (ho : o.Within (lineLimits P)) : (m.push o).Confined P := by
  refine ⟨h.line, fun a => ?_⟩
  rw [m.object?_push]
  split
  · exact ho
  · exact h.object a

/-- Objects that are changed stay on lines of the kind. -/
theorem modify (h : m.Confined P) (i : Nat) {f : Object → Object}
    (hf : ∀ o : Object, o.Within (lineLimits P) → (f o).Within (lineLimits P)) :
    Machine.Confined P { m with heap := m.heap.modify i f } := by
  refine ⟨h.line, fun a => ?_⟩
  have ha := h.object a
  change Object.IfWithin _ ((m.heap.modify i f)[a.index]?)
  change Object.IfWithin _ (m.heap[a.index]?) at ha
  rw [Array.getElem?_modify]
  split
  · cases hobject : m.heap[a.index]? with
    | none => trivial
    | some o =>
      rw [hobject] at ha
      exact hf o ha
  · exact ha

theorem put (h : m.Confined P) (a : Address) (ho : o.Within (lineLimits P)) : (m.put a o).Confined P := by
  refine ⟨h.line, fun b => ?_⟩
  have hb := h.object b
  rw [m.object?_put]
  split
  · cases hobject : m.object? b with
    | none => trivial
    | some _ => exact ho
  · exact hb

/-- Writing a global name replaces a dictionary. -/
theorem writeGlobal (h : m.Confined P) (id : String) (v : Value) : (m.writeGlobal id v).Confined P := by
  refine h.modify _ fun o ho => ?_
  split
  · exact Entries.within_lines _
  · exact ho

end Machine.Confined

end Script

/-! ## Runs -/

/-- A script on lines of a kind leaves a confined machine confined. Where it may rest, it may be started
before the first line. -/
def lineLikeness (P : Nat → Prop) (rests : Prop) : Likeness (lineLimits P) where
  alike m n := m = n ∧ m.Confined P ∧ (rests ∨ P m.line)
  line {m n} h := by
    obtain ⟨rfl, h, -⟩ := h
    exact ⟨rfl, h.line⟩
  onLine {m n l} h hl := by
    obtain ⟨rfl, h, -⟩ := h
    exact ⟨rfl, h.sameHeap rfl (.inr hl), .inr hl⟩
  back {m n m' n'} h h' := by
    obtain ⟨rfl, h, hline⟩ := h
    obtain ⟨rfl, h', -⟩ := h'
    exact ⟨rfl, h'.sameHeap rfl h.line, hline⟩
  depth h := congrArg Machine.depth h.1
  atDepth {m n} d h := by
    obtain ⟨rfl, h, hline⟩ := h
    exact ⟨rfl, h.sameHeap rfl h.line, hline⟩
  handling h := ⟨congrArg Machine.handling h.1, fun _ _ => trivial⟩
  handle {m n es} h _ := by
    obtain ⟨rfl, h, hline⟩ := h
    exact ⟨rfl, h.sameHeap rfl h.line, hline⟩
  showing h := congrArg Machine.showing h.1
  show' {m n} s h := by
    obtain ⟨rfl, h, hline⟩ := h
    exact ⟨rfl, h.sameHeap rfl h.line, hline⟩
  print {m n} t h := by
    obtain ⟨rfl, h, hline⟩ := h
    exact ⟨rfl, h.sameHeap rfl h.line, hline⟩
  fresh h := ⟨congrArg Machine.fresh h.1, trivial⟩
  object {m n a} h _ := ⟨congrArg (·.object? a) h.1, h.2.1.object a⟩
  push {m n o} h ho := by
    obtain ⟨rfl, h, hline⟩ := h
    exact ⟨rfl, h.push ho, hline⟩
  put {m n a o} h _ ho := by
    obtain ⟨rfl, h, hline⟩ := h
    exact ⟨rfl, h.put a ho, hline⟩
  global {m n id} h _ := ⟨congrArg (·.global? id) h.1, Value.ifWithin_lines _⟩
  writeGlobal {m n id v} h _ _ := by
    obtain ⟨rfl, h, hline⟩ := h
    exact ⟨rfl, h.writeGlobal id v, hline⟩
  removeGlobal {m n id} h _ _ := by
    obtain ⟨rfl, h, hline⟩ := h
    exact ⟨rfl, h.put _ (Entries.within_lines _), hline⟩
  globals h _ := ⟨congrArg Machine.globals h.1, trivial⟩
  whole _ := trivial
  hidden := trivial
  binds := ⟨trivial, trivial⟩

section

variable {P : Nat → Prop} {rests : Prop}

/-- The interpreter leaves confined machines confined. -/
theorem confined_operations (n : Nat) : (operations n).Within (lineLikeness P rests) :=
  within_operations (fun _ _ _ _ _ _ _ _ _ hwraps _ => False.elim hwraps) n

/-- A computation leaves confined machines confined. -/
def Script.Confines (P : Nat → Prop) {α : Type} (x : Run α) : Prop :=
  (lineLikeness P True).Both (fun _ => True) x x

namespace Script.Confines

variable {α β : Type} {x : Run α} {f : α → Run β} {m m' : Machine} {v : Value} {es : Entries} {n : Nat}

theorem of_gives {Q : α → Prop} (h : ⦃(lineLikeness P True).inside⦄ x ⦃(lineLikeness P True).gives Q⦄) :
    Confines P x :=
  .of_stays (Likeness.stays_of_gives h)

theorem of_stays (h : ⦃(lineLikeness P True).inside⦄ x ⦃(lineLikeness P True).stays⦄) : Confines P x :=
  Likeness.Both.of_stays h

theorem pure {a : α} : Confines P (Pure.pure a) := Likeness.Both.pure trivial

theorem bind (hx : Confines P x) (hf : ∀ a, Confines P (f a)) : Confines P (x >>= f) :=
  Likeness.Both.bind hx fun a _ => hf a

theorem catching {h : Address → Run α} (hx : Confines P x) (hh : ∀ e, Confines P (h e)) :
    Confines P (Run.catching x h) :=
  Likeness.Both.catching hx fun e _ => hh e

theorem raised {e : Address} : Confines P (throw (.raised e) : Run α) :=
  fun _ _ hw => ⟨rfl, trivial, hw⟩

theorem ok {a : α} (h : Confines P x) (hm : m.Confined P) (hrun : x.run m = .ok a m') : m'.Confined P := by
  have hends := h m m ⟨rfl, hm, .inl trivial⟩
  rw [hrun] at hends
  exact hends.2.2.2.1

theorem error {e : Stop} (h : Confines P x) (hm : m.Confined P) (hrun : x.run m = .error e m') :
    m'.Confined P := by
  have hends := h m m ⟨rfl, hm, .inl trivial⟩
  rw [hrun] at hends
  exact hends.2.2.2.1

theorem mapM {γ : Type} {f : γ → Run β} (h : ∀ y, Confines P (f y)) (ys : List γ) : Confines P (ys.mapM f) := by
  induction ys with
  | nil => exact .pure
  | cons y ys ih =>
    rw [List.mapM_cons]
    exact .bind (h y) fun b => .bind ih fun bs => .pure

/-! ### Contexts -/

theorem isContext : Confines P (Context.isContext v) := by
  refine .bind (.bind (.of_gives (Run.classOf_spec v.within_lines)) fun cls => ?_) fun k => ?_
  · split <;> exact .pure
  · split <;> exact .pure

/-- Making a context. -/
theorem new (k : ContextKind) (es : Entries) (escaper : Option Value) :
    Confines P (Context.new (operations n) k es escaper) := by
  have hmake (members : Members) :
      Confines P (Run.alloc (.instance ⟨.kind (.context k), members, [], none⟩)) :=
    .of_gives (Run.alloc_spec ⟨trivial, members.within_lines, trivial, nofun⟩)
  have hdict (es : Entries) : Confines P (Run.newDict es) := .of_gives (Run.newDict_spec es.within_lines)
  have hnamed : Confines P (es.mapM fun e => do
      return (Value.str (← (operations n).str e.1), e.2)) :=
    .mapM (fun e => .bind (.of_stays ((confined_operations n).str e.1.within_lines)) fun _ => .pure) es
  unfold Context.new
  cases k with
  | text | html => exact .bind hnamed fun named => .bind (hdict _) fun vars => hmake _
  | keyed => exact .bind (hdict es) fun store => hmake _
  | duck | bare | incomplete => exact hmake _

theorem invoke (c : Value) (method : String) (args : List Value) :
    Confines P (Context.invoke (operations n) c method args) :=
  .bind (.of_gives ((confined_operations n).member c.within_lines)) fun f =>
    .of_gives ((confined_operations n).call f.within_lines (Value.allWithin_lines _) (Members.within_lines _))

theorem valuesUnder {f : Value → Run Value} (hf : ∀ k, Confines P (f k)) (ks : List Value) (es : Entries) :
    Confines P (Context.valuesUnder f ks es) := by
  induction ks generalizing es with
  | nil => exact .pure
  | cons k ks ih =>
    exact .bind (hf k) fun v => .bind (.of_stays (Item.checkKey_spec k.within_lines)) fun _ => ih _

/-- Reading what a template sees of a context. -/
theorem bindings (c : Value) : Confines P (Context.bindings (operations n) c) := by
  have hkeys : Confines P (Run.catching ((operations n).member c "keys") fun e => do
      if ← Run.isException e .attributeError then return .none else throw (.raised e)) := by
    refine .catching (.of_gives ((confined_operations n).member c.within_lines)) fun e => ?_
    refine .bind (.of_stays (Run.isException_spec trivial)) fun b => ?_
    split
    · exact .pure
    · exact .raised
  refine .bind hkeys fun keys => .bind (.of_stays (Builtin.isCallable_spec keys.within_lines)) fun b => ?_
  split
  · refine .bind (.of_gives ((confined_operations n).call keys.within_lines (Value.allWithin_lines _)
      (Members.within_lines _))) fun names => ?_
    refine .bind (.of_gives (Iterate.items_spec (confined_operations n) names.within_lines)) fun names => ?_
    exact .valuesUnder (fun name => .invoke c "get" [name]) names []
  · split
    · refine .bind (.of_gives (Run.object?_spec trivial)) fun o => ?_
      split <;> exact .pure
    · exact .pure

/-- Making the namespace of a run. -/
theorem namespaceOf (c : Value) : Confines P (Render.namespaceOf (operations n) c) := by
  refine .bind (bindings c) fun es => ?_
  refine .bind (.of_gives ((confined_operations n).member c.within_lines)) fun escape => ?_
  exact .bind (.of_gives (Run.newList_spec (Value.allWithin_lines _))) fun buffer => .pure

/-! ### Data -/

mutual

/-- Making values for data. -/
theorem ofData : (d : Data) → Confines P (Value.ofData d)
  | .none | .bool _ | .int _ | .float _ | .str _ | .callable | .other _ _ _ => .pure
  | .list items => .bind (ofItems items) fun vs => .of_gives (Run.newList_spec (Value.allWithin_lines vs))
  | .tuple items => .bind (ofItems items) fun _ => .pure
  | .dict entries => .bind (ofEntries entries) fun es => .of_gives (Run.newDict_spec es.within_lines)

/-- Making values for the items of data. -/
theorem ofItems : (items : List Data) → Confines P (Value.ofItems items)
  | [] => .pure
  | d :: rest => .bind (ofData d) fun _ => .bind (ofItems rest) fun _ => .pure

/-- Making values for the entries of data. -/
theorem ofEntries : (entries : List (Data × Data)) → Confines P (Value.ofEntries entries)
  | [] => .pure
  | (k, d) :: rest =>
    .bind (ofData k) fun _ => .bind (ofData d) fun _ => .bind (ofEntries rest) fun _ => .pure

end

end Script.Confines

/-- No code stands on a new machine. -/
theorem Script.Machine.start_confined (P : Nat → Prop) : Machine.start.Confined P := by
  refine ⟨.inl rfl, fun ⟨i⟩ => ?_⟩
  cases i with
  | zero => exact Entries.within_lines []
  | succ i => trivial

/-! ## Origins -/

/-- Where a line of a kind is being worked on, exceptions were raised on such lines first. -/
theorem Script.Machine.Confined.exists_originIn {m : Machine} (h : m.Confined P) (hpos : ∀ l, P l → 0 < l)
    (hline : P m.line) (e : Address) : ∃ l, Render.originIn m e = some l ∧ P l := by
  have hkept {l : Nat} (hl : P l) : (some l).filter (0 < ·) = some l := by simpa using hpos l hl
  have hobject : Object.IfWithin _ (m.heap[e.index]?) := h.object e
  unfold Render.originIn
  rw [hkept hline]
  split
  · next i hi =>
    rw [hi] at hobject
    obtain ⟨-, -, -, horigin⟩ := hobject
    cases hnoted : i.origin with
    | none => exact ⟨_, rfl, hline⟩
    | some l =>
      obtain rfl | hl := horigin l hnoted
      · exact ⟨_, rfl, hline⟩
      · exact ⟨l, congrArg (·.or (some m.line)) (hkept hl), hl⟩
  · exact ⟨_, rfl, hline⟩

/-- The statements of a script start on the line of the first of them. -/
theorem run_resume_onLine {body : List Stmt} {m m' : Machine} {e : Address} {n : Nat}
    (h : ((operations n).resume Env.top .proceed [.run body]).run m = .error (.raised e) m') :
    ∃ s ∈ body, ((operations n).resume Env.top .proceed [.run body]).run (m.onLine s.line) =
      .error (.raised e) m' := by
  rcases n with _ | _ | n
  · cases h
  · cases h
  · cases body with
    | nil => cases n <;> cases h
    | cons s body => exact ⟨s, List.mem_cons_self, h⟩

/-- The exception that ends a script on lines of a kind was raised on such a line first. -/
theorem exists_originIn (hpos : ∀ l, P l → 0 < l) {body : List Stmt}
    (hbody : ∀ s ∈ body, s.Within (lineLimits P)) {m m' : Machine} (hm : m.Confined P) {e : Address} {n : Nat}
    (h : ((operations n).resume Env.top .proceed [.run body]).run m = .error (.raised e) m') :
    m'.Confined P ∧ ∃ l, Render.originIn m' e = some l ∧ P l := by
  obtain ⟨s, hs, hrun⟩ := run_resume_onLine h
  have hline : P s.line := (hbody s hs).line
  -- the first statement puts its own line in place of the machine's, so the run may as well start there
  have hops : (operations n).Within (lineLikeness P False) := confined_operations n
  have hspec : ⦃(lineLikeness P False).inside⦄ (operations n).resume Env.top .proceed [.run body]
      ⦃(lineLikeness P False).gives (Outcome.Within (lineLimits P))⦄ :=
    hops.resume (Env.top_within _) trivial (List.forall_mem_singleton.2 hbody)
  have hends := Pairs.triple_iff.1 hspec (m.onLine s.line) (m.onLine s.line)
    ⟨rfl, hm.sameHeap rfl (.inr hline), .inr hline⟩
  rw [hrun] at hends
  obtain ⟨-, -, -, hm', hline'⟩ := hends
  exact ⟨hm', hm'.exists_originIn hpos (hline'.resolve_left id) e⟩

end

end Stencil
