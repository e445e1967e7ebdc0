import Mathlib
import Stencil.Proofs.Error.Rendering
import Stencil.Proofs.Reach.Statement

/-!
# Runs apart from their context

The statements of a template that do not mention the names under which the engine keeps the context can
reach it only through the escape that its expressions go through. Their run does not change what the
context holds, and it cannot tell the context from another one that holds the same.
-/

namespace Stencil

open Script
open Std.Do
open scoped Pairs

set_option mvcgen.warning false

/-! ## Contexts on a machine -/

/-- A value that refers to no object. -/
def Script.Value.IsPlain : Value → Prop
  | .none | .bool _ | .int _ | .float _ | .str _ => True
  | _ => False

/-- What a context holds: its kind, the escaper in place of that of its kind, and its bindings, which are
plain values under distinct names. -/
structure ContextContent where
  html : Bool
  escaper : Option Escaper
  entries : Entries
  names : List String
  named : entries.Named names
  distinct : names.Nodup
  plain : ∀ e ∈ entries, e.2.IsPlain

/-- Where a context stands on a machine, and the dictionary of its bindings. -/
structure ContextPlace where
  context : Address
  vars : Address

/-- The object of a context. -/
def ContextContent.object (d : ContextContent) (vars : Address) : Object :=
  .instance (contextObject d.html vars (d.escaper.map fun e => .native (.escaper e)))

/-- A machine has a context with a content at a place. -/
structure Script.Machine.HasContext (m : Machine) (d : ContextContent) (p : ContextPlace) : Prop where
  context : m.object? p.context = some (d.object p.vars)
  vars : m.object? p.vars = some (.dict d.entries)

/-- A dictionary with one more entry; another object stays as it is. -/
def Script.Object.withEntry (k v : Value) : Object → Object
  | .dict es => .dict (es.insert k v)
  | o => o

/-- Writing a global name replaces the namespace. -/
theorem Script.Machine.writeGlobal_eq {m : Machine} {es : Entries} (h : m.object? m.globals = some (.dict es))
    (id : String) (v : Value) : m.writeGlobal id v = m.put m.globals (.dict (es.insert (.str id) v)) := by
  have hrun := Run.run_change h (Object.withEntry (.str id) v)
  exact (EStateM.Result.ok.inj hrun).2

/-- The value under a name after an entry has been removed. -/
theorem Script.Entries.named?_erase (es : Entries) (name name' : String) :
    (es.erase (.str name)).named? name' = if name' = name then none else es.named? name' := by
  rw [Entries.named?, Entries.find?, Entries.erase, List.find?_filter]
  by_cases h : name' = name
  · rw [if_pos h, h, Option.map_eq_none_iff, List.find?_eq_none]
    intro e _
    simp
  · rw [if_neg h, Entries.named?, Entries.find?]
    congr 2
    funext e
    cases hs : e.1.same (.str name')
    · simp
    · have hne : e.1.same (.str name) = false := by
        rw [Value.same_str.1 hs, Bool.eq_false_iff]
        intro heq
        exact h (by cases Value.same_str.1 heq; rfl)
      simp [hne]

/-! ## Limits -/

/-- The names that lead to the context or to the namespace of a run. -/
def leadingNames : List String := ["_context", "_escape", "globals", "locals"]

/-- The limits of a template that does not mention names that lead to its context, but for calls of the
escape: the objects from an address on, but for the namespace, which is made right behind the list of the
output. -/
def templateLimits (k : Nat) : Limits where
  line _ := True
  name id := id ∉ leadingNames
  binds _ := True
  wraps f args inner := (∃ l, f = .name l "_escape") ∧ inner = args
  address a := k ≤ a.index ∧ a.index ≠ k + 1
  whole := False

/-- Namespaces that agree on the names within limits, with the escape of a context in each. -/
structure Agreement (k : Nat) (p q : ContextPlace) (es fs : Entries) : Prop where
  names : ∀ id ∉ leadingNames, es.named? id = fs.named? id ∧
    Value.IfWithin (templateLimits k) (es.named? id)
  escape : es.named? "_escape" = some (.method (.ref p.context) "escape") ∧
    fs.named? "_escape" = some (.method (.ref q.context) "escape")

/-- Two machines that agree on all that a template may reach, and that have contexts of one content at
places below. -/
structure Beside (k : Nat) (d : ContextContent) (p q : ContextPlace) (m n : Machine) : Prop where
  size : m.heap.size = n.heap.size
  room : k + 2 ≤ m.heap.size
  line : m.line = n.line
  depth : m.depth = n.depth
  showing : m.showing = n.showing
  handling : m.handling = n.handling ∧ ∀ e ∈ m.handling, (templateLimits k).address e
  globals : m.globals = ⟨k + 1⟩ ∧ n.globals = ⟨k + 1⟩
  space : ∃ es fs, m.object? ⟨k + 1⟩ = some (.dict es) ∧ n.object? ⟨k + 1⟩ = some (.dict fs) ∧
    Agreement k p q es fs
  object : ∀ a, (templateLimits k).address a → m.object? a = n.object? a ∧
    Object.IfWithin (templateLimits k) (m.object? a)
  context : m.HasContext d p ∧ n.HasContext d q
  below : p.context.index < k ∧ p.vars.index < k ∧ q.context.index < k ∧ q.vars.index < k

namespace Beside

variable {k : Nat} {d : ContextContent} {p q : ContextPlace} {m n : Machine}

/-- Objects that are made or replaced where a template may reach leave the namespaces and the contexts. -/
theorem congr {m' n' : Machine} (h : Beside k d p q m n) (hsize : m'.heap.size = n'.heap.size)
    (hroom : k + 2 ≤ m'.heap.size)
    (hline : m'.line = n'.line) (hdepth : m'.depth = n'.depth) (hshowing : m'.showing = n'.showing)
    (hhandling : m'.handling = n'.handling ∧ ∀ e ∈ m'.handling, (templateLimits k).address e)
    (hglobals : m'.globals = m.globals ∧ n'.globals = n.globals)
    (hm : ∀ a : Address, a.index < k ∨ a.index = k + 1 → m'.object? a = m.object? a)
    (hn : ∀ a : Address, a.index < k ∨ a.index = k + 1 → n'.object? a = n.object? a)
    (hobject : ∀ a, (templateLimits k).address a → m'.object? a = n'.object? a ∧
      Object.IfWithin (templateLimits k) (m'.object? a)) : Beside k d p q m' n' := by
  obtain ⟨es, fs, hes, hfs, hspace⟩ := h.space
  obtain ⟨hp, hpv, hq, hqv⟩ := h.below
  obtain ⟨hcm, hcn⟩ := h.context
  exact {
    size := hsize
    room := hroom
    line := hline
    depth := hdepth
    showing := hshowing
    handling := hhandling
    globals := ⟨hglobals.1.trans h.globals.1, hglobals.2.trans h.globals.2⟩
    space := ⟨es, fs, (hm _ (.inr rfl)).trans hes, (hn _ (.inr rfl)).trans hfs, hspace⟩
    object := hobject
    context := ⟨⟨(hm _ (.inl hp)).trans hcm.context, (hm _ (.inl hpv)).trans hcm.vars⟩,
      ⟨(hn _ (.inl hq)).trans hcn.context, (hn _ (.inl hqv)).trans hcn.vars⟩⟩
    below := h.below }

/-- Another line, depth, or list of what is handled or written. -/
theorem sameHeap {m' n' : Machine} (h : Beside k d p q m n) (hm : m'.heap = m.heap) (hn : n'.heap = n.heap)
    (hglobals : m'.globals = m.globals ∧ n'.globals = n.globals) (hline : m'.line = n'.line)
    (hdepth : m'.depth = n'.depth) (hshowing : m'.showing = n'.showing)
    (hhandling : m'.handling = n'.handling ∧ ∀ e ∈ m'.handling, (templateLimits k).address e) :
    Beside k d p q m' n' := by
  have hobject (a : Address) : m'.object? a = m.object? a := by rw [Machine.object?, hm]; rfl
  have hobject' (a : Address) : n'.object? a = n.object? a := by rw [Machine.object?, hn]; rfl
  refine h.congr (by rw [hm, hn, h.size]) (by rw [hm]; exact h.room) hline hdepth hshowing hhandling hglobals
    (fun a _ => hobject a) (fun a _ => hobject' a) fun a ha => ?_
  rw [hobject, hobject']
  exact h.object a ha

/-- One more object on both machines. -/
theorem push {o : Object} (h : Beside k d p q m n) (ho : o.Within (templateLimits k)) :
    Beside k d p q (m.push o) (n.push o) := by
  have hroom := h.room
  have hsize := h.size
  have hagree := (Machine.Agree.mk h.size h.object).push ho
  exact h.congr hagree.size (by rw [Machine.size_push]; omega) h.line h.depth h.showing h.handling
    ⟨rfl, rfl⟩ (fun a ha => m.object?_push_of_lt a o (by omega))
    (fun a ha => n.object?_push_of_lt a o (by omega)) hagree.object

/-- Another object that a template may reach in place of one on both machines. -/
theorem put {o : Object} {a : Address} (h : Beside k d p q m n) (ha : (templateLimits k).address a)
    (ho : o.Within (templateLimits k)) : Beside k d p q (m.put a o) (n.put a o) := by
  have hagree := (Machine.Agree.mk h.size h.object).put a ho
  have hne (b : Address) (hb : b.index < k ∨ b.index = k + 1) : a ≠ b := by
    rintro rfl
    exact hb.elim (Nat.not_lt_of_le ha.1) ha.2
  exact h.congr hagree.size (by rw [Machine.size_put]; exact h.room) h.line h.depth h.showing h.handling
    ⟨rfl, rfl⟩ (fun b hb => m.object?_put_of_ne a b o (hne b hb))
    (fun b hb => n.object?_put_of_ne a b o (hne b hb)) hagree.object

/-- Namespaces in place of the two. -/
theorem putSpace {es fs : Entries} (h : Beside k d p q m n) (hspace : Agreement k p q es fs) :
    Beside k d p q (m.put m.globals (.dict es)) (n.put n.globals (.dict fs)) := by
  obtain ⟨es', fs', hes, hfs, -⟩ := h.space
  obtain ⟨hp, hpv, hq, hqv⟩ := h.below
  obtain ⟨hcm, hcn⟩ := h.context
  obtain ⟨hgm, hgn⟩ := h.globals
  have hne {b : Address} (hb : b.index ≠ k + 1) : (⟨k + 1⟩ : Address) ≠ b := by
    rintro rfl
    exact hb rfl
  have hold (m : Machine) {b : Address} (o : Object) (hb : b.index ≠ k + 1) :
      (m.put ⟨k + 1⟩ o).object? b = m.object? b := m.object?_put_of_ne _ b o (hne hb)
  rw [hgm, hgn]
  exact {
    size := by rw [Machine.size_put, Machine.size_put, h.size]
    room := by rw [Machine.size_put]; exact h.room
    line := h.line
    depth := h.depth
    showing := h.showing
    handling := h.handling
    globals := ⟨hgm, hgn⟩
    space := ⟨es, fs, Machine.object?_put_self hes _, Machine.object?_put_self hfs _, hspace⟩
    object := fun a ha => by
      rw [hold m _ ha.2, hold n _ ha.2]
      exact h.object a ha
    context := ⟨⟨(hold m _ (by omega)).trans hcm.context, (hold m _ (by omega)).trans hcm.vars⟩,
      ⟨(hold n _ (by omega)).trans hcn.context, (hold n _ (by omega)).trans hcn.vars⟩⟩
    below := h.below }

/-- The entries of the namespaces. -/
theorem exists_entries (h : Beside k d p q m n) : ∃ es fs,
    m.object? m.globals = some (.dict es) ∧ n.object? n.globals = some (.dict fs) ∧
      m.entries m.globals = es ∧ n.entries n.globals = fs ∧ Agreement k p q es fs := by
  obtain ⟨es, fs, hes, hfs, hspace⟩ := h.space
  obtain ⟨hgm, hgn⟩ := h.globals
  rw [← hgm] at hes
  rw [← hgn] at hfs
  refine ⟨es, fs, hes, hfs, ?_, ?_, hspace⟩
  · rw [Machine.entries, hes]
  · rw [Machine.entries, hfs]

end Beside

namespace Agreement

variable {k : Nat} {p q : ContextPlace} {es fs : Entries} {id : String} {v : Value}

theorem insert (h : Agreement k p q es fs) (hid : id ∉ leadingNames) (hv : v.Within (templateLimits k)) :
    Agreement k p q (es.insert (.str id) v) (fs.insert (.str id) v) := by
  have hne : "_escape" ≠ id := by
    rintro rfl
    exact hid (by simp [leadingNames])
  constructor
  · intro id' hid'
    rw [Entries.named?_insert, Entries.named?_insert]
    split
    · exact ⟨rfl, hv⟩
    · exact h.names id' hid'
  · rw [Entries.named?_insert, Entries.named?_insert, if_neg hne, if_neg hne]
    exact h.escape

theorem erase (h : Agreement k p q es fs) (hid : id ∉ leadingNames) :
    Agreement k p q (es.erase (.str id)) (fs.erase (.str id)) := by
  have hne : "_escape" ≠ id := by
    rintro rfl
    exact hid (by simp [leadingNames])
  constructor
  · intro id' hid'
    rw [Entries.named?_erase, Entries.named?_erase]
    split
    · exact ⟨rfl, trivial⟩
    · exact h.names id' hid'
  · rw [Entries.named?_erase, Entries.named?_erase, if_neg hne, if_neg hne]
    exact h.escape

end Agreement

/-- Templates that do not mention names that lead to their context cannot tell machines apart that agree on
all else. -/
def besideLikeness (k : Nat) (d : ContextContent) (p q : ContextPlace) : Likeness (templateLimits k) where
  alike := Beside k d p q
  line h := ⟨h.line, .inr trivial⟩
  onLine h _ := h.sameHeap rfl rfl ⟨rfl, rfl⟩ rfl h.depth h.showing h.handling
  back h h' := h'.sameHeap rfl rfl ⟨rfl, rfl⟩ h.line h'.depth h'.showing h'.handling
  depth h := h.depth
  atDepth _ h := h.sameHeap rfl rfl ⟨rfl, rfl⟩ h.line rfl h.showing h.handling
  handling h := h.handling
  handle h hes := h.sameHeap rfl rfl ⟨rfl, rfl⟩ h.line h.depth h.showing ⟨rfl, hes⟩
  showing h := h.showing
  show' _ h := h.sameHeap rfl rfl ⟨rfl, rfl⟩ h.line h.depth rfl h.handling
  print _ h := h.sameHeap rfl rfl ⟨rfl, rfl⟩ h.line h.depth h.showing h.handling
  fresh h := ⟨congrArg Address.mk h.size, by have := h.room; simp only [templateLimits, Machine.fresh]; omega⟩
  object h ha := h.object _ ha
  push h ho := h.push ho
  put h ha ho := h.put ha ho
  global {m n id} h hid := by
    obtain ⟨es, fs, -, -, hes, hfs, hspace⟩ := h.exists_entries
    rw [Machine.global?, Machine.global?, hes, hfs]
    exact hspace.names id hid
  writeGlobal {m n id v} h hid hv := by
    obtain ⟨es, fs, hes, hfs, -, -, hspace⟩ := h.exists_entries
    rw [Machine.writeGlobal_eq hes, Machine.writeGlobal_eq hfs]
    exact h.putSpace (hspace.insert hid hv)
  removeGlobal {m n id} h hid _ := by
    obtain ⟨es, fs, hes, hfs, hes', hfs', hspace⟩ := h.exists_entries
    rw [Machine.removeGlobal, Machine.removeGlobal, hes', hfs']
    exact h.putSpace (hspace.erase hid)
  globals _ h := h.elim
  whole h := h.elim (fun h => h (by simp [leadingNames])) fun h => h (by simp [leadingNames])
  hidden := by
    show Eval.hiddenSource ∉ leadingNames
    simp [leadingNames, Eval.hiddenSource]
  binds := ⟨trivial, trivial⟩

/-! ## Two computations -/

/-- Two computations do the same to machines that are alike. -/
def Script.Likeness.Both {L : Limits} (W : Likeness L) {α : Type} (P : α → Prop) (x y : Run α) : Prop :=
  ∀ m n, W.alike m n → Pairs.Ends (W.gives P) (x.run m) (y.run n)

namespace Script.Likeness.Both

variable {L : Limits} {W : Likeness L} {α β : Type} {P : α → Prop} {Q : β → Prop} {x y : Run α}
  {f g : α → Run β}

theorem of_gives (h : ⦃W.inside⦄ x ⦃W.gives P⦄) : W.Both P x x :=
  fun m n hw => Pairs.triple_iff.1 h m n hw

theorem of_stays (h : ⦃W.inside⦄ x ⦃W.stays⦄) : W.Both (fun _ => True) x x :=
  of_gives (W.gives_of_stays h)

theorem of_fails (h : ⦃W.inside⦄ x ⦃W.fails⦄) : W.Both P x x :=
  of_gives (W.gives_of_fails h)

theorem pure {a : α} (h : P a) : W.Both P (Pure.pure a) (Pure.pure a) :=
  fun _ _ hw => ⟨rfl, h, hw⟩

theorem bind (h : W.Both P x y) (hf : ∀ a, P a → W.Both Q (f a) (g a)) : W.Both Q (x >>= f) (y >>= g) := by
  intro m n hw
  have hx := h m n hw
  rw [EStateM.run_bind, EStateM.run_bind]
  cases hm : x.run m <;> cases hn : y.run n <;> rw [hm, hn] at hx
  case error.error => exact hx
  case ok.ok =>
    obtain ⟨rfl, hp, hw'⟩ := hx
    exact hf _ hp _ _ hw'
  all_goals exact hx.elim

theorem catching {h k : Address → Run α} (hx : W.Both P x y)
    (hh : ∀ e, L.address e → W.Both P (h e) (k e)) : W.Both P (Run.catching x h) (Run.catching y k) := by
  intro m n hw
  have hx := hx m n hw
  rw [Run.catching, Run.catching, Run.run_tryCatch, Run.run_tryCatch]
  cases hm : x.run m <;> cases hn : y.run n <;> rw [hm, hn] at hx
  case ok.ok => exact hx
  case error.error e _ _ _ =>
    obtain ⟨rfl, he, hw'⟩ := hx
    cases e with
    | raised a => exact hh a he _ _ hw'
    | exhausted => exact ⟨rfl, he, hw'⟩
  all_goals exact hx.elim

end Script.Likeness.Both

/-! ## Arguments for two callees -/

namespace Script.Eval

variable {L : Limits} {W : Likeness L} {ops : Ops} (ho : ops.Within W) {env : Env} (henv : env.Within L)
  {line : Nat} (hl : L.line line) {f g : Value} (hname : W.Both (fun _ => True) (calleeName f) (calleeName g))
  {args : List Argument} {named : Members}

include hname

theorem both_addNamed {more : Entries} (hnamed : named.Within L) (hmore : Entries.Within L more) :
    W.Both (Members.Within L) (addNamed f named more) (addNamed g named more) := by
  induction more generalizing named with
  | nil => exact .pure hnamed
  | cons e more ih =>
    obtain ⟨he, hrest⟩ := Entries.within_cons.1 hmore
    obtain ⟨k, w⟩ := e
    cases k with
    | str name =>
      unfold addNamed
      dsimp only
      split
      · exact .bind hname fun _ _ => .bind (.of_fails (P := fun _ => False) Run.typeError_spec) fun _ h => h.elim
      · exact ih (by grind) hrest
    | _ => exact .of_fails Run.typeError_spec

include ho henv hl

theorem both_namedArguments (h : ∀ a ∈ args, a.Within L) (hnamed : named.Within L) :
    W.Both (Members.Within L) (namedArguments ops env line f args named)
      (namedArguments ops env line g args named) := by
  induction args generalizing named with
  | nil => exact .pure hnamed
  | cons a rest ih =>
    obtain ⟨ha, hrest⟩ := List.forall_mem_cons.1 h
    cases ha with
    | positional | star => exact ih hrest hnamed
    | named hline he =>
      refine .bind (.of_gives (ho.eval henv he)) fun v hv => ?_
      exact .bind (both_addNamed hname hnamed (by grind)) fun ms hms => ih hrest hms
    | doubleStar he =>
      refine .bind (.of_gives (ho.eval henv he)) fun v hv => ?_
      refine .bind (.of_stays (Run.atLine_spec hl)) fun _ _ => ?_
      refine .bind (.of_gives (mappingEntries?_spec ho hv)) fun es hes => ?_
      cases es with
      | some es => exact .bind (both_addNamed hname hnamed (hes es rfl)) fun ms hms => ih hrest hms
      | none =>
        refine .bind hname fun _ _ => ?_
        exact .bind (.of_stays (Run.kindName_spec hv)) fun _ _ => .of_fails Run.typeError_spec

omit henv in
theorem both_onlyItems {v : Value} (hv : v.Within L) :
    W.Both (Value.AllWithin L) (onlyItems ops line f v) (onlyItems ops line g v) := by
  refine .bind (.of_stays (Run.atLine_spec hl)) fun _ _ => ?_
  refine .bind (P := Value.Within L) (.catching (.of_gives (Iterate.start_spec ho hv)) fun e he => ?_)
    fun iterator hi => ?_
  · refine .bind (.of_stays (Run.isException_spec he)) fun b _ => ?_
    cases b with
    | true =>
      refine .bind hname fun _ _ => ?_
      exact .bind (.of_stays (Run.kindName_spec hv)) fun _ _ => .of_fails Run.typeError_spec
    | false => exact fun m n hw => ⟨rfl, he, hw⟩
  · exact .bind (.of_gives (Ops.drain_spec ho hi)) fun _ hvs => .pure hvs

/-- The arguments of a call are the same for callees with one name. -/
theorem both_arguments (h : ∀ a ∈ args, a.Within L) :
    W.Both (fun r => Value.AllWithin L r.1 ∧ r.2.Within L) (arguments ops env line f args)
      (arguments ops env line g args) := by
  have hmany : W.Both (fun r => Value.AllWithin L r.1 ∧ r.2.Within L)
      (do
        let vs ← positionalArguments ops env line args []
        let named ← namedArguments ops env line f args []
        return (vs, named))
      (do
        let vs ← positionalArguments ops env line args []
        let named ← namedArguments ops env line g args []
        return (vs, named)) := by
    refine .bind (.of_gives (positionalArguments_spec ho henv hl h trivial)) fun vs hvs => ?_
    exact .bind (both_namedArguments ho henv hl hname h Members.within_nil) fun ms hms => .pure ⟨hvs, hms⟩
  unfold arguments
  extract_lets byPosition
  -- only a value that is unpacked as the only one by position is gone through last
  rcases hby : byPosition with _ | ⟨_ | e | _ | _, _ | ⟨b, rest⟩⟩
  case cons.star.nil =>
    have he : e.Within L := within_only_star h hby
    refine .bind (.of_gives (ho.eval henv he)) fun v hv => ?_
    refine .bind (both_namedArguments ho henv hl hname h Members.within_nil) fun ms hms => ?_
    exact .bind (both_onlyItems ho hl hname hv) fun vs hvs => .pure ⟨hvs, hms⟩
  all_goals exact hmany

end Script.Eval

/-! ## The escape of a context -/

namespace Script.Binding

variable {L : Limits} {path : String} {named ms : Members} {vs : List Value}

/-- The name of the method with which a context escapes values. -/
def escapeName : String := "escape"

/-- The parameters of the escape of a context. -/
def escapeSlots : List ParamSlot := [ContextMethod.required "self", ContextMethod.required "value"]

/-- Binding named arguments behind the context does not depend on the context. -/
theorem bindNamed_escape (path : String) (hnamed : named.Within L) (hms : ms.Within L) :
    (∃ ms' : Members, ms'.Within L ∧ ∀ (v : Value) (m : Machine),
      (bindNamed path escapeSlots named (("self", v) :: ms) []).run m = .ok (("self", v) :: ms', []) m) ∨
    ∃ message, ∀ (v : Value) (m : Machine),
      (bindNamed path escapeSlots named (("self", v) :: ms) []).run m =
        (Run.typeError message : Run (Members × Members)).run m := by
  induction named generalizing ms with
  | nil => exact .inl ⟨ms, hms, fun _ _ => rfl⟩
  | cons p rest ih =>
    obtain ⟨name, w⟩ := p
    obtain ⟨hw, hrest⟩ := Members.within_cons.1 hnamed
    by_cases hself : name = "self"
    · subst hself
      exact .inr ⟨_, fun v m => rfl⟩
    have hfind (v : Value) : Members.find? (("self", v) :: ms) name = ms.find? name := by
      rw [Members.find?, List.lookup_cons, beq_false_of_ne hself]
      rfl
    have hinsert (v : Value) : Members.insert name w (("self", v) :: ms) = ("self", v) :: ms.insert name w := by
      rw [Members.insert, if_neg (Ne.symm hself)]
    by_cases hvalue : name = "value"
    · subst hvalue
      cases hms' : (ms.find? "value").isSome with
      | true =>
        let word := "value"
        refine .inr ⟨s!"{path}() got multiple values for argument '{word}'", fun v m => ?_⟩
        rw [bindNamed, if_pos (by decide), hfind, hms']
        rfl
      | false =>
        have hrun (v : Value) : bindNamed path escapeSlots (("value", w) :: rest) (("self", v) :: ms) [] =
            bindNamed path escapeSlots rest (("self", v) :: ms.insert "value" w) [] := by
          rw [bindNamed, if_pos (by decide), hfind, hms', hinsert]
          rfl
        simp only [hrun]
        exact ih hrest (hms.insert hw)
    · have hnameable : (nameable escapeSlots).any (·.id == name) = false := by
        simp [nameable, escapeSlots, ContextMethod.required, Ne.symm hself, Ne.symm hvalue]
      refine .inr ⟨s!"{path}() got an unexpected keyword argument '{name}'", fun v m => ?_⟩
      rw [bindNamed, hnameable]
      rfl

/-- Arguments under the names of the parameters that take them by position. -/
def byPosition (params : List ParamSlot) (args : List Value) : Members :=
  ((positionals params).zip args).map fun (p, v) => (p.id, v)

theorem byPosition_escape (v : Value) (vs : List Value) :
    byPosition escapeSlots (v :: vs) = ("self", v) :: (vs.take 1).map fun w => ("value", w) := by
  cases vs <;> rfl

/-- Binding the arguments of the escape of a context does not depend on the context: it gives values within
limits behind the context, or it raises an exception. -/
theorem bind_escape (hvs : Value.AllWithin L vs) (hnamed : named.Within L) :
    (∃ ms : Members, ms.Within L ∧ ∀ (v : Value) (m : Machine),
      (bind path escapeSlots (v :: vs) named).run m = .ok (("self", v) :: ms) m) ∨
    ∃ message, ∀ (v : Value) (m : Machine),
      (bind path escapeSlots (v :: vs) named).run m = (Run.typeError message : Run Members).run m := by
  have hpositional (v : Value) : (((positionals escapeSlots).zip (v :: vs)).map fun (p, w) => (p.id, w)) =
      ("self", v) :: (vs.take 1).map fun w => ("value", w) := byPosition_escape v vs
  have hms : Members.Within L ((vs.take 1).map fun w => ("value", w)) :=
    Members.within_map.2 fun w hw => (hvs.take 1).of_mem hw
  obtain ⟨ms, hms, hrun⟩ | ⟨message, hrun⟩ := bindNamed_escape path hnamed hms
  · have hdrop (v : Value) : (v :: vs).drop (positionals escapeSlots).length = vs.drop 1 := rfl
    have hself (v : Value) : Members.find? (("self", v) :: ms) "self" = some v := rfl
    have hvalue (v : Value) : Members.find? (("self", v) :: ms) "value" = ms.find? "value" := rfl
    cases hrest : vs.drop 1 with
    | cons w rest =>
      refine .inr ⟨tooMany path escapeSlots (vs.length + 1) [], fun v m => ?_⟩
      unfold bind
      simp only [hpositional, hdrop, hrest]
      rw [EStateM.run_bind, hrun]
      rfl
    | nil =>
      have hslots : positionals escapeSlots = escapeSlots := rfl
      have hnames : escapeSlots.filter (·.kind == .nameOnly) = [] := rfl
      cases hgiven : ms.find? "value" with
      | none =>
        let what := "positional"
        let missing := ["value"]
        refine .inr ⟨s!"{path}() missing {missing.length} required {what} " ++
          s!"argument{plural missing.length}: {listed missing}", fun v m => ?_⟩
        unfold bind
        simp only [hpositional, hdrop, hrest]
        rw [EStateM.run_bind, hrun]
        have hmissing : (escapeSlots.filter fun p => p.default.isNone &&
            (Members.find? (("self", v) :: ms) p.id).isNone).map (·.id) = ["value"] := by
          simp [escapeSlots, ContextMethod.required, hself, hvalue, hgiven]
        simp only [checkMissing, hslots, hmissing]
        rfl
      | some w =>
        refine .inl ⟨ms, hms, fun v m => ?_⟩
        unfold bind
        simp only [hpositional, hdrop, hrest]
        rw [EStateM.run_bind, hrun]
        have hmissing : (escapeSlots.filter fun p => p.default.isNone &&
            (Members.find? (("self", v) :: ms) p.id).isNone).map (·.id) = [] := by
          simp [escapeSlots, ContextMethod.required, hself, hvalue, hgiven]
        simp only [checkMissing, hslots, hmissing, hnames, List.filter_nil, List.map_nil]
        simp only [escapeSlots, ContextMethod.required, List.foldl_cons, List.foldl_nil, hself, hvalue, hgiven]
        rfl
  · refine .inr ⟨message, fun v m => ?_⟩
    unfold bind
    simp only [hpositional]
    rw [EStateM.run_bind, hrun]
    rfl

end Script.Binding

/-- What the escape of a context makes of a value. -/
def ContextContent.escape (d : ContextContent) (ops : Ops) (v : Value) : Run Value :=
  match d.escaper with
  | some e => ops.call (.native (.escaper e)) [v] []
  | none => Escaper.apply ops (if d.html then .html else .text) v

section

variable {k : Nat} {d : ContextContent} {p q : ContextPlace} {m : Machine}

/-- The escape of a context binds its arguments, and hands the value on to its escaper. -/
theorem run_call_contextEscape {html : Bool} {c vars : Address} {escaper : Option Value}
    (h : m.object? c = some (.instance (contextObject html vars escaper))) (vs : List Value) (named : Members)
    (n : Nat) : ((operations (n + 1)).call (.method (.ref c) "escape") vs named).run m = (do
      let bound ← Binding.bind s!"{ContextMethod.pathOf .text}.{Binding.escapeName}" Binding.escapeSlots
        (.ref c :: vs) named
      ContextMethod.escape (operations n) (contextKind html) (contextObject html vars escaper)
        ((bound.find? "value").getD .none) : Run Value).run m := by
  change (Call.method (operations n) (.ref c) "escape" vs named).run m = _
  rw [Call.method]
  simp only [EStateM.run_bind, Run.run_object?, h, contextObject]
  rw [ContextMethod.call]
  simp only [EStateM.run_bind, Run.run_object?, h]
  have hslots : ContextMethod.required "self" ::
      (ContextMethod.params? (contextKind html) "escape").getD [] = Binding.escapeSlots := by
    cases html <;> rfl
  have hpath : ContextMethod.pathOf (contextKind html) = ContextMethod.pathOf .text := by
    cases html <;> rfl
  simp only [hslots, hpath]
  rfl

/-- The escape of a context depends on what the context holds alone. -/
theorem run_call_escapeMethod (h : m.HasContext d p) (vs : List Value) (named : Members) (n : Nat) :
    ((operations (n + 1)).call (.method (.ref p.context) "escape") vs named).run m = (do
      let bound ← Binding.bind s!"{ContextMethod.pathOf .text}.{Binding.escapeName}" Binding.escapeSlots
        (.ref p.context :: vs) named
      d.escape (operations n) ((bound.find? "value").getD .none) : Run Value).run m := by
  obtain ⟨html, escaper, entries, names, named', distinct, plain⟩ := d
  rw [run_call_contextEscape h.context]
  have hescape (v : Value) : ContextMethod.escape (operations n) (contextKind html)
      (contextObject html p.vars (escaper.map fun e => .native (.escaper e))) v =
        ContextContent.escape ⟨html, escaper, entries, names, named', distinct, plain⟩ (operations n) v := by
    cases html <;> cases escaper <;> rfl
  refine congrFun (congrArg EStateM.run (bind_congr fun bound => ?_)) m
  exact hescape _

/-- What a context is called in complaints about the arguments of its escape. -/
theorem run_calleeName_escape {html : Bool} {c vars : Address} {escaper : Option Value}
    (h : m.object? c = some (.instance (contextObject html vars escaper))) :
    (Eval.calleeName (.method (.ref c) "escape")).run m =
      .ok s!"{ContextMethod.fullPathOf .text}.{Binding.escapeName}()" m := by
  have hpath : ContextMethod.fullPathOf (contextKind html) = ContextMethod.fullPathOf .text := by
    cases html <;> rfl
  simp [Eval.calleeName, Run.classOf, h, contextObject, hpath]
  rfl

/-- A call of the escape with values within limits is the same for contexts of one content. -/
theorem both_escape (n : Nat) (ho : ∀ j ≤ n, (operations j).Within (besideLikeness k d p q))
    {vs : List Value} {named : Members} (hvs : Value.AllWithin (templateLimits k) vs)
    (hnamed : named.Within (templateLimits k)) :
    (besideLikeness k d p q).Both (Value.Within (templateLimits k))
      ((operations n).call (.method (.ref p.context) "escape") vs named)
      ((operations n).call (.method (.ref q.context) "escape") vs named) := by
  cases n with
  | zero => exact fun m n hw => ⟨rfl, trivial, hw⟩
  | succ n =>
    have ho := ho n (Nat.le_succ n)
    have hescape (v : Value) (hv : v.Within (templateLimits k)) :
        ⦃(besideLikeness k d p q).inside⦄ d.escape (operations n) v
          ⦃(besideLikeness k d p q).gives (Value.Within (templateLimits k))⦄ := by
      unfold ContextContent.escape
      split
      · exact ho.call (by simp) ⟨hv, trivial⟩ Members.within_nil
      · exact Escaper.apply_spec ho hv
    intro m₁ m₂ hw
    rw [run_call_escapeMethod hw.context.1, run_call_escapeMethod hw.context.2]
    obtain ⟨ms, hms, hbind⟩ | ⟨message, hbind⟩ := Binding.bind_escape hvs hnamed
    · rw [EStateM.run_bind, EStateM.run_bind, hbind, hbind]
      exact Pairs.triple_iff.1 (hescape _ (hms.ifWithin_find?.getD (v := .none) trivial)) m₁ m₂ hw
    · have hfails := Pairs.triple_iff.1 ((besideLikeness k d p q).gives_of_fails
        (P := Value.Within (templateLimits k)) (x := Run.typeError message) Run.typeError_spec) m₁ m₂ hw
      have hrun {α : Type} (m : Machine) : (Run.typeError message : Run α).run m =
        .error (.raised m.fresh) (m.push (Run.exceptionObject .typeError message m.line)) := rfl
      rw [EStateM.run_bind, EStateM.run_bind, hbind, hbind, hrun, hrun]
      rw [hrun, hrun] at hfails
      exact hfails

variable {env : Env}

/-- The name of the escape has a value within limits, or it is the escape of each context. -/
theorem read_escape (henv : env.Within (templateLimits k)) {m n : Machine} (hw : Beside k d p q m n) :
    Pairs.Ends ((besideLikeness k d p q).gives (Value.Within (templateLimits k)))
        ((Scope.read env "_escape").run m) ((Scope.read env "_escape").run n) ∨
      ∃ m' n', Beside k d p q m' n' ∧
        (Scope.read env "_escape").run m = .ok (.method (.ref p.context) "escape") m' ∧
        (Scope.read env "_escape").run n = .ok (.method (.ref q.context) "escape") n' := by
  have hspec : ⦃(besideLikeness k d p q).inside⦄ Scope.inNamespace? env "_escape"
      ⦃(besideLikeness k d p q).gives (Value.IfWithin (templateLimits k))⦄ :=
    Scope.inNamespace?_spec henv
  have hin := Pairs.triple_iff.1 hspec m n hw
  simp only [Scope.read, EStateM.run_bind]
  cases hm : (Scope.inNamespace? env "_escape").run m <;>
    cases hn : (Scope.inNamespace? env "_escape").run n <;> rw [hm, hn] at hin
  case error.error => exact .inl hin
  case ok.ok v m' _ n' =>
    obtain ⟨rfl, hv, hw'⟩ := hin
    cases v with
    | some v => exact .inl ⟨rfl, hv, hw'⟩
    | none =>
      dsimp only
      cases hx : Scope.variableOf? env "_escape" with
      | some x =>
        have hcell : ⦃(besideLikeness k d p q).inside⦄ Scope.ofVariable x
            ⦃(besideLikeness k d p q).gives (Value.Within (templateLimits k))⦄ :=
          Scope.ofVariable_spec (Scope.within_variableOf? henv hx)
        exact .inl (Pairs.triple_iff.1 hcell m' n' hw')
      | none =>
        refine .inr ⟨m', n', hw', ?_⟩
        obtain ⟨es, fs, -, -, hes, hfs, hspace⟩ := Beside.exists_entries hw'
        simp only [Scope.run_global, Machine.global?, hes, hfs, hspace.escape.1, hspace.escape.2]
        exact ⟨rfl, rfl⟩
  all_goals exact hin.elim

/-- What is left of a call when its callee has been evaluated. -/
def afterCallee (ops : Ops) (env : Env) (line : Nat) (args : List Script.Argument) (f : Value) : Run Value := do
  let (vs, named) ← Eval.arguments ops env line f args
  Run.atLine line
  match f, vs with
  | .native .super, [] => Eval.behind env
  | .native .locals, [] => Eval.visible env
  | _, _ => ops.call f vs named

theorem afterCallee_spec {n : Nat} (ho : (operations n).Within (besideLikeness k d p q))
    (henv : env.Within (templateLimits k)) {line : Nat} {args : List Script.Argument} {f : Value}
    (hf : f.Within (templateLimits k)) (hargs : ∀ a ∈ args, a.Within (templateLimits k)) :
    ⦃(besideLikeness k d p q).inside⦄ afterCallee (operations n) env line args f
      ⦃(besideLikeness k d p q).gives (Value.Within (templateLimits k))⦄ := by
  have hl : (templateLimits k).line line := trivial
  mvcgen [afterCallee] with grind

/-- Calls of the escape keep machines alike that have contexts of one content. -/
theorem wraps_escape (n : Nat) (ho : ∀ j ≤ n, (operations j).Within (besideLikeness k d p q)) :
    Eval.Wraps (besideLikeness k d p q) (operations n) := by
  rintro env line callee args inner henv hl ⟨⟨l, rfl⟩, rfl⟩ hargs
  refine Likeness.gives_of_run fun m₁ m₂ hw => ?_
  cases n with
  | zero => exact ⟨rfl, trivial, hw⟩
  | succ n =>
    have hon := ho (n + 1) le_rfl
    have hrun (m : Machine) :
        (Eval.call (operations (n + 1)) env line (.name l "_escape") inner).run m =
          (Scope.read env "_escape" >>= afterCallee (operations (n + 1)) env line inner).run (m.onLine l) := rfl
    have hw : Beside k d p q (m₁.onLine l) (m₂.onLine l) := (besideLikeness k d p q).onLine hw trivial
    rw [hrun, hrun, EStateM.run_bind, EStateM.run_bind]
    obtain hread | ⟨m', n', hw', hm, hn⟩ := read_escape henv hw
    · cases hm : (Scope.read env "_escape").run (m₁.onLine l) <;>
        cases hn : (Scope.read env "_escape").run (m₂.onLine l) <;> rw [hm, hn] at hread
      case error.error => exact hread
      case ok.ok =>
        obtain ⟨rfl, hf, hw'⟩ := hread
        exact Pairs.triple_iff.1 (afterCallee_spec hon henv hf hargs) _ _ hw'
      all_goals exact hread.elim
    · rw [hm, hn]
      have hname : (besideLikeness k d p q).Both (fun _ => True)
          (Eval.calleeName (.method (.ref p.context) "escape"))
          (Eval.calleeName (.method (.ref q.context) "escape")) := fun m n hw => by
        rw [run_calleeName_escape (hw : Beside k d p q m n).context.1.context,
          run_calleeName_escape (hw : Beside k d p q m n).context.2.context]
        exact ⟨rfl, trivial, hw⟩
      refine (Likeness.Both.bind (Eval.both_arguments hon henv trivial hname hargs) fun r hr => ?_) m' n' hw'
      obtain ⟨vs, named⟩ := r
      refine .bind (.of_stays (Run.atLine_spec trivial)) fun _ _ => ?_
      exact both_escape (n + 1) ho hr.1 hr.2

/-- The interpreter keeps machines alike that have contexts of one content. -/
theorem beside_operations (n : Nat) : (operations n).Within (besideLikeness k d p q) :=
  within_operations wraps_escape n

end

end Stencil
