import Mathlib
import Stencil.Proofs.Reach.Rendering

/-!
# Text mode and HTML mode

A template for text and one for HTML with the same program run in step: from the same start they evaluate
the same expressions to the same values, and they differ only in the texts that they have put out. Where an
expression that is escaped has put out a text, the template for HTML has put out the escaped text. Main
statement: `modes_differ_by_escaping`.
-/

namespace Stencil

open Script Stencil.Tree
open Std.Do
open scoped Pairs

set_option mvcgen.warning false

/-! ## Output -/

/-- A text that is put out, and whether it is escaped for HTML. -/
structure Emission where
  text : String
  escaped : Bool

/-- What a template for text or for HTML puts out. -/
def Emission.write (html : Bool) (e : Emission) : String :=
  if html && e.escaped then Escape.htmlString e.text else e.text

/-- What has been put out, piece by piece. -/
def writtenAll (html : Bool) (out : List Emission) : List String :=
  out.map (Emission.write html)

/-- Where an escaped text may be put out, `shows` holds. -/
def Emission.Allowed (shows : Prop) (e : Emission) : Prop :=
  e.escaped = true → shows

/-! ## Limits -/

/-- The names that the engine keeps for itself, and those that hand out the namespace of a run. -/
def reservedNames : List String := ["_context", "_escape", "_str", "_buf", "globals", "locals"]

/-- What is put out by one call: a text, the plain text of a value or, where `shows` holds, the escape of
a value. The arguments of the call within are those of the template's code. -/
inductive Emits (shows : Prop) : Expr → List Script.Argument → Prop
  | text {l : Nat} {s : String} : Emits shows (.constant l (.str s)) []
  | plain {l l' : Nat} {args : List Script.Argument} : Emits shows (.call l (.name l' "_str") args) args
  | escaped {l l' : Nat} {args : List Script.Argument} :
      shows → Emits shows (.call l (.name l' "_escape") args) args

/-- The limits of a template that does not mention reserved names but where it puts something out: its
objects were made for its bindings, from one address on, or by itself, behind the objects of the engine. -/
def modeLimits (base own : Nat) (shows : Prop) : Limits where
  line _ := True
  name id := id ∉ reservedNames
  binds id := id ∉ reservedNames
  wraps f args inner := ∃ l l' l'' e, f = .member l (.name l' Render.bufferName) "append" l'' ∧
    args = [.positional e] ∧ Emits shows e inner
  address a := base ≤ a.index ∧ (a.index < own ∨ own + 5 ≤ a.index)
  whole := False

section

variable {base own : Nat} {shows : Prop}

/-- The objects of the engine in a run of a template for text or for HTML: the context, the list of the
output and the namespace. They are made one after the other, behind the dictionary of the context. -/
structure EngineObjects (own : Nat) (html : Bool) (es : Entries) (out : List Emission) (m : Machine) :
    Prop where
  globals : m.globals = ⟨own + 4⟩
  context : m.object? ⟨own + 1⟩ = some (.instance (contextObject html ⟨own⟩))
  buffer : m.object? ⟨own + 3⟩ = some (.list ((writtenAll html out).map Value.str).toArray)
  space : m.object? ⟨own + 4⟩ = some (.dict es)

/-- The names of the engine are kept, and all others have values within limits. -/
structure EngineNames (base own : Nat) (shows : Prop) (es : Entries) : Prop where
  buffer : es.named? Render.bufferName = some (.ref ⟨own + 3⟩)
  escape : es.named? "_escape" = some (.method (.ref ⟨own + 1⟩) "escape")
  plain : es.named? "_str" = some (.native .plainText)
  rest : ∀ id ∉ reservedNames, Value.IfWithin (modeLimits base own shows) (es.named? id)

/-- A machine in text mode and one in HTML mode have come to the same point. -/
structure InStep (base own : Nat) (shows : Prop) (m n : Machine) : Prop where
  agree : Machine.Agree (modeLimits base own shows) m n
  room : base ≤ own ∧ own + 5 ≤ m.heap.size
  line : m.line = n.line
  depth : m.depth = n.depth
  showing : m.showing = n.showing
  printed : m.printed = n.printed
  handling : m.handling = n.handling ∧ ∀ e ∈ m.handling, (modeLimits base own shows).address e
  engine : ∃ es out, EngineObjects own false es out m ∧ EngineObjects own true es out n ∧
    EngineNames base own shows es ∧ ∀ e ∈ out, e.Allowed shows

namespace EngineNames

variable {es : Entries} {id : String} {v : Value}

/-- A reserved name is not one of the template's own. -/
theorem ne_of_mem {name : String} (hname : name ∈ reservedNames) (hid : id ∉ reservedNames) : name ≠ id := by
  rintro rfl
  exact hid hname

theorem insert (h : EngineNames base own shows es) (hid : id ∉ reservedNames)
    (hv : v.Within (modeLimits base own shows)) : EngineNames base own shows (es.insert (.str id) v) where
  buffer := by
    rw [Entries.named?_insert, if_neg (ne_of_mem (by simp [reservedNames, Render.bufferName]) hid)]
    exact h.buffer
  escape := by
    rw [Entries.named?_insert, if_neg (ne_of_mem (by simp [reservedNames]) hid)]
    exact h.escape
  plain := by
    rw [Entries.named?_insert, if_neg (ne_of_mem (by simp [reservedNames]) hid)]
    exact h.plain
  rest id' hid' := by
    rw [Entries.named?_insert]
    split
    · exact hv
    · exact h.rest id' hid'

theorem erase (h : EngineNames base own shows es) (hid : id ∉ reservedNames) :
    EngineNames base own shows (es.erase (.str id)) where
  buffer := by
    rw [Entries.named?_erase, if_neg (ne_of_mem (by simp [reservedNames, Render.bufferName]) hid)]
    exact h.buffer
  escape := by
    rw [Entries.named?_erase, if_neg (ne_of_mem (by simp [reservedNames]) hid)]
    exact h.escape
  plain := by
    rw [Entries.named?_erase, if_neg (ne_of_mem (by simp [reservedNames]) hid)]
    exact h.plain
  rest id' hid' := by
    rw [Entries.named?_erase]
    split
    · trivial
    · exact h.rest id' hid'

end EngineNames

namespace EngineObjects

variable {html : Bool} {es : Entries} {out : List Emission} {m : Machine}

/-- The objects of the engine are those of another machine with the same objects at their addresses. -/
theorem of_object? {m' : Machine} (h : EngineObjects own html es out m) (hglobals : m'.globals = m.globals)
    (hobject : ∀ a : Address, own ≤ a.index → a.index < own + 5 → m'.object? a = m.object? a) :
    EngineObjects own html es out m' where
  globals := hglobals.trans h.globals
  context := (hobject _ (by simp) (by simp)).trans h.context
  buffer := (hobject _ (by simp) (by simp)).trans h.buffer
  space := (hobject _ (by simp) (by simp)).trans h.space

/-- Another namespace. -/
theorem putSpace (h : EngineObjects own html es out m) (fs : Entries) :
    EngineObjects own html fs out (m.put m.globals (.dict fs)) := by
  have hne {i : Nat} (hi : i ≠ own + 4) : m.globals ≠ ⟨i⟩ := by
    rw [h.globals]
    exact fun heq => hi (Address.mk.inj heq).symm
  exact {
    globals := h.globals
    context := (m.object?_put_of_ne _ _ _ (hne (by simp))).trans h.context
    buffer := (m.object?_put_of_ne _ _ _ (hne (by simp))).trans h.buffer
    space := by
      rw [h.globals]
      exact Machine.object?_put_self h.space _ }

/-- One more piece of output. -/
theorem append (h : EngineObjects own html es out m) (e : Emission) :
    EngineObjects own html es (out ++ [e]) (m.put ⟨own + 3⟩
      (.list (((writtenAll html out).map Value.str).toArray.push (.str (e.write html))))) := by
  have hne {i : Nat} (hi : own + 3 ≠ i) : (⟨own + 3⟩ : Address) ≠ ⟨i⟩ := fun heq => hi (Address.mk.inj heq)
  exact {
    globals := h.globals
    context := (m.object?_put_of_ne _ _ _ (hne (by simp))).trans h.context
    buffer := by
      rw [Machine.object?_put_self h.buffer]
      simp [writtenAll]
    space := (m.object?_put_of_ne _ _ _ (hne (by simp))).trans h.space }

end EngineObjects

namespace InStep

variable {m n : Machine}

/-- The entries of the namespaces. -/
theorem exists_entries (h : InStep base own shows m n) : ∃ es,
    m.object? m.globals = some (.dict es) ∧ n.object? n.globals = some (.dict es) ∧
      m.entries m.globals = es ∧ n.entries n.globals = es ∧ EngineNames base own shows es := by
  obtain ⟨es, out, hm, hn, hnames, -⟩ := h.engine
  have hes : m.object? m.globals = some (.dict es) := by rw [hm.globals, hm.space]
  have hfs : n.object? n.globals = some (.dict es) := by rw [hn.globals, hn.space]
  exact ⟨es, hes, hfs, by rw [Machine.entries, hes], by rw [Machine.entries, hfs], hnames⟩

/-- Objects that are made or replaced where a template may reach leave the objects of the engine. -/
theorem congr {m' n' : Machine} (h : InStep base own shows m n)
    (hagree : Machine.Agree (modeLimits base own shows) m' n') (hsize : m.heap.size ≤ m'.heap.size)
    (hline : m'.line = n'.line) (hdepth : m'.depth = n'.depth) (hshowing : m'.showing = n'.showing)
    (hprinted : m'.printed = n'.printed)
    (hhandling : m'.handling = n'.handling ∧ ∀ e ∈ m'.handling, (modeLimits base own shows).address e)
    (hglobals : m'.globals = m.globals ∧ n'.globals = n.globals)
    (hm : ∀ a : Address, own ≤ a.index → a.index < own + 5 → m'.object? a = m.object? a)
    (hn : ∀ a : Address, own ≤ a.index → a.index < own + 5 → n'.object? a = n.object? a) :
    InStep base own shows m' n' := by
  obtain ⟨es, out, hem, hen, hnames, hout⟩ := h.engine
  exact {
    agree := hagree
    room := ⟨h.room.1, h.room.2.trans hsize⟩
    line := hline
    depth := hdepth
    showing := hshowing
    printed := hprinted
    handling := hhandling
    engine := ⟨es, out, hem.of_object? hglobals.1 hm, hen.of_object? hglobals.2 hn, hnames, hout⟩ }

/-- Another line, depth, or list of what is handled, written or printed. -/
theorem sameHeap {m' n' : Machine} (h : InStep base own shows m n) (hm : m'.heap = m.heap)
    (hn : n'.heap = n.heap) (hglobals : m'.globals = m.globals ∧ n'.globals = n.globals)
    (hline : m'.line = n'.line) (hdepth : m'.depth = n'.depth) (hshowing : m'.showing = n'.showing)
    (hprinted : m'.printed = n'.printed)
    (hhandling : m'.handling = n'.handling ∧ ∀ e ∈ m'.handling, (modeLimits base own shows).address e) :
    InStep base own shows m' n' := by
  have hobject (a : Address) : m'.object? a = m.object? a := by rw [Machine.object?, hm]; rfl
  have hobject' (a : Address) : n'.object? a = n.object? a := by rw [Machine.object?, hn]; rfl
  refine h.congr ⟨by rw [hm, hn, h.agree.size], fun a ha => ?_⟩ (by rw [hm]) hline hdepth hshowing hprinted
    hhandling hglobals (fun a _ _ => hobject a) fun a _ _ => hobject' a
  rw [hobject, hobject']
  exact h.agree.object a ha

theorem push {o : Object} (h : InStep base own shows m n) (ho : o.Within (modeLimits base own shows)) :
    InStep base own shows (m.push o) (n.push o) := by
  have hroom := h.room.2
  have hsize := h.agree.size
  exact h.congr (h.agree.push ho) (by rw [Machine.size_push]; omega) h.line h.depth h.showing h.printed
    h.handling ⟨rfl, rfl⟩ (fun a _ ha => m.object?_push_of_lt a o (by omega))
    fun a _ ha => n.object?_push_of_lt a o (by omega)

theorem put {o : Object} {a : Address} (h : InStep base own shows m n)
    (ha : (modeLimits base own shows).address a) (ho : o.Within (modeLimits base own shows)) :
    InStep base own shows (m.put a o) (n.put a o) := by
  have hne (b : Address) (hle : own ≤ b.index) (hlt : b.index < own + 5) : a ≠ b := by
    rintro rfl
    exact ha.2.elim (Nat.not_lt_of_le hle) (Nat.not_le_of_lt hlt)
  exact h.congr (h.agree.put a ho) (by rw [Machine.size_put]) h.line h.depth h.showing h.printed
    h.handling ⟨rfl, rfl⟩ (fun b hle hlt => m.object?_put_of_ne a b o (hne b hle hlt))
    fun b hle hlt => n.object?_put_of_ne a b o (hne b hle hlt)

/-- Objects of the engine are out of the reach of a template. -/
theorem agree_putEngine (h : InStep base own shows m n) {a : Address} (hle : own ≤ a.index)
    (hlt : a.index < own + 5) (o o' : Object) :
    Machine.Agree (modeLimits base own shows) (m.put a o) (n.put a o') := by
  refine ⟨by rw [Machine.size_put, Machine.size_put, h.agree.size], fun b hb => ?_⟩
  have hne : a ≠ b := by
    rintro rfl
    exact hb.2.elim (Nat.not_lt_of_le hle) (Nat.not_le_of_lt hlt)
  rw [m.object?_put_of_ne a b o hne, n.object?_put_of_ne a b o' hne]
  exact h.agree.object b hb

/-- Another namespace in place of both. -/
theorem putSpace {es : Entries} (h : InStep base own shows m n) (hnames : EngineNames base own shows es) :
    InStep base own shows (m.put m.globals (.dict es)) (n.put n.globals (.dict es)) := by
  obtain ⟨_, out, hm, hn, -, hout⟩ := h.engine
  exact {
    agree := by
      rw [hm.globals, hn.globals]
      exact h.agree_putEngine (by simp) (by simp) _ _
    room := ⟨h.room.1, by rw [Machine.size_put]; exact h.room.2⟩
    line := h.line
    depth := h.depth
    showing := h.showing
    printed := h.printed
    handling := h.handling
    engine := ⟨es, out, hm.putSpace es, hn.putSpace es, hnames, hout⟩ }

/-- Putting out a piece in each mode keeps the machines in step. -/
theorem run_append (h : InStep base own shows m n) {e : Emission} (he : e.Allowed shows) (j : Nat) :
    ∃ m' n', InStep base own shows m' n' ∧
      ((operations (j + 1)).call (.method (.ref ⟨own + 3⟩) "append") [.str (e.write false)] []).run m =
        .ok .none m' ∧
      ((operations (j + 1)).call (.method (.ref ⟨own + 3⟩) "append") [.str (e.write true)] []).run n =
        .ok .none n' := by
  obtain ⟨es, out, hm, hn, hnames, hout⟩ := h.engine
  refine ⟨_, _, ?_, run_call_append j hm.buffer _, run_call_append j hn.buffer _⟩
  exact {
    agree := h.agree_putEngine (by simp) (by simp) _ _
    room := ⟨h.room.1, by rw [Machine.size_put]; exact h.room.2⟩
    line := h.line
    depth := h.depth
    showing := h.showing
    printed := h.printed
    handling := h.handling
    engine := ⟨es, out ++ [e], hm.append e, hn.append e, hnames,
      List.forall_mem_append.2 ⟨hout, List.forall_mem_singleton.2 he⟩⟩ }

end InStep

/-- Templates that mention reserved names only where they put something out keep machines in step. -/
def modeLikeness (base own : Nat) (shows : Prop) : Likeness (modeLimits base own shows) where
  alike := InStep base own shows
  line h := ⟨h.line, .inr trivial⟩
  onLine h _ := h.sameHeap rfl rfl ⟨rfl, rfl⟩ rfl h.depth h.showing h.printed h.handling
  back h h' := h'.sameHeap rfl rfl ⟨rfl, rfl⟩ h.line h'.depth h'.showing h'.printed h'.handling
  depth h := h.depth
  atDepth _ h := h.sameHeap rfl rfl ⟨rfl, rfl⟩ h.line rfl h.showing h.printed h.handling
  handling h := h.handling
  handle h hes := h.sameHeap rfl rfl ⟨rfl, rfl⟩ h.line h.depth h.showing h.printed ⟨rfl, hes⟩
  showing h := h.showing
  show' _ h := h.sameHeap rfl rfl ⟨rfl, rfl⟩ h.line h.depth rfl h.printed h.handling
  print t h := h.sameHeap rfl rfl ⟨rfl, rfl⟩ h.line h.depth h.showing
    (congrArg (Array.push · t) h.printed) h.handling
  fresh h := by
    refine ⟨congrArg Address.mk h.agree.size, ?_⟩
    obtain ⟨hle, hroom⟩ := h.room
    exact ⟨Nat.le_trans (Nat.le_trans hle (Nat.le_add_right _ _)) hroom, .inr hroom⟩
  object h ha := h.agree.object _ ha
  push h ho := h.push ho
  put h ha ho := h.put ha ho
  global {m n id} h hid := by
    obtain ⟨es, -, -, hes, hfs, hnames⟩ := h.exists_entries
    rw [Machine.global?, Machine.global?, hes, hfs]
    exact ⟨rfl, hnames.rest id hid⟩
  writeGlobal {m n id v} h hid hv := by
    obtain ⟨es, hes, hfs, -, -, hnames⟩ := h.exists_entries
    rw [Machine.writeGlobal_eq hes, Machine.writeGlobal_eq hfs]
    exact h.putSpace (hnames.insert hid hv)
  removeGlobal {m n id} h hid _ := by
    obtain ⟨es, -, -, hes, hfs, hnames⟩ := h.exists_entries
    rw [Machine.removeGlobal, Machine.removeGlobal, hes, hfs]
    exact h.putSpace (hnames.erase hid)
  globals _ h := h.elim
  whole h := h.elim (fun h => h (by simp [reservedNames])) fun h => h (by simp [reservedNames])
  hidden := by
    show Eval.hiddenSource ∉ reservedNames
    simp [reservedNames, Eval.hiddenSource]
  binds := by
    show Eval.hiddenSource ∉ reservedNames ∧ Class.hiddenName ∉ reservedNames
    simp [reservedNames, Eval.hiddenSource, Class.hiddenName]

/-! ## Texts in two modes -/

/-- Two computations have given the texts of a piece of output in each mode, or have stopped short for the
same reason. -/
def EndInTexts (base own : Nat) (shows : Prop) :
    EStateM.Result Stop Machine Value → EStateM.Result Stop Machine Value → Prop
  | .ok v m, .ok w n => ∃ e : Emission, e.Allowed shows ∧ v = .str (e.write false) ∧
      w = .str (e.write true) ∧ InStep base own shows m n
  | .error s m, .error t n => s = t ∧ s.Within (modeLimits base own shows) ∧ InStep base own shows m n
  | _, _ => False

/-- Two computations give the texts of a piece of output in each mode on machines in step. -/
def GiveTexts (base own : Nat) (shows : Prop) (x y : Run Value) : Prop :=
  ∀ m n, InStep base own shows m n → EndInTexts base own shows (x.run m) (y.run n)

namespace GiveTexts

variable {α β : Type} {P : α → Prop} {Q : β → Prop}

theorem pure {e : Emission} (he : e.Allowed shows) :
    GiveTexts base own shows (Pure.pure (.str (e.write false))) (Pure.pure (.str (e.write true))) :=
  fun _ _ h => ⟨e, he, rfl, rfl, h⟩

theorem of_both {x y : Run α} {f g : α → Run Value} (h : (modeLikeness base own shows).Both P x y)
    (hf : ∀ a, P a → GiveTexts base own shows (f a) (g a)) :
    GiveTexts base own shows (x >>= f) (y >>= g) := by
  intro m n hw
  have hx := h m n hw
  rw [EStateM.run_bind, EStateM.run_bind]
  cases hm : x.run m <;> cases hn : y.run n <;> rw [hm, hn] at hx
  case error.error => exact hx
  case ok.ok =>
    obtain ⟨rfl, hp, hw'⟩ := hx
    exact hf _ hp _ _ hw'
  all_goals exact hx.elim

theorem bind {x y : Run Value} {f g : Value → Run β} (h : GiveTexts base own shows x y)
    (hf : ∀ e : Emission, e.Allowed shows →
      (modeLikeness base own shows).Both Q (f (.str (e.write false))) (g (.str (e.write true)))) :
    (modeLikeness base own shows).Both Q (x >>= f) (y >>= g) := by
  intro m n hw
  have hx := h m n hw
  rw [EStateM.run_bind, EStateM.run_bind]
  cases hm : x.run m <;> cases hn : y.run n <;> rw [hm, hn] at hx
  case error.error => exact hx
  case ok.ok =>
    obtain ⟨e, he, rfl, rfl, hw'⟩ := hx
    exact hf e he _ _ hw'
  all_goals exact hx.elim

end GiveTexts

variable {env : Env} {name : String} {v : Value}

/-- A name of the engine has its value, wherever it is read. -/
theorem both_read (henv : env.Within (modeLimits base own shows)) (hname : name ∈ reservedNames)
    (hv : ∀ es, EngineNames base own shows es → es.named? name = some v) :
    (modeLikeness base own shows).Both (· = v) (Scope.read env name) (Scope.read env name) := by
  intro m n hw
  have hin : InStep base own shows m n := hw
  have hread {m : Machine} (hobject : ∀ a, (modeLimits base own shows).address a →
        Object.IfWithin (modeLimits base own shows) (m.object? a)) {es : Entries}
      (hes : m.entries m.globals = es) (hnames : EngineNames base own shows es) :
      (Scope.read env name).run m = .ok v m := by
    rw [Scope.run_read_of_not_name henv (fun h => h hname) (fun h => h hname) id hobject, Scope.run_global,
      Machine.global?, hes, hv es hnames]
    rfl
  obtain ⟨es, -, -, hes, hfs, hnames⟩ := hin.exists_entries
  rw [hread (fun a ha => (hin.agree.object a ha).2) hes hnames,
    hread (fun a ha => (hin.agree.object a ha).1 ▸ (hin.agree.object a ha).2) hfs hnames]
  exact ⟨rfl, rfl, hw⟩

theorem both_name (henv : env.Within (modeLimits base own shows)) (hname : name ∈ reservedNames)
    (hv : ∀ es, EngineNames base own shows es → es.named? name = some v) (line j : Nat) :
    (modeLikeness base own shows).Both (· = v) ((operations (j + 1)).eval env (.name line name))
      ((operations (j + 1)).eval env (.name line name)) :=
  .bind (.of_stays (Run.atLine_spec trivial)) fun _ _ => both_read henv hname hv

/-- The method that adds to the output. -/
theorem both_appender (henv : env.Within (modeLimits base own shows)) (l l' l'' j : Nat) :
    (modeLikeness base own shows).Both (· = .method (.ref ⟨own + 3⟩) "append")
      ((operations (j + 2)).eval env (.member l (.name l' Render.bufferName) "append" l''))
      ((operations (j + 2)).eval env (.member l (.name l' Render.bufferName) "append" l'')) := by
  have hname : Render.bufferName ∈ reservedNames := by simp [reservedNames, Render.bufferName]
  refine .bind (both_name henv hname (fun es h => h.buffer) l' j) fun f hf => ?_
  subst hf
  refine .bind (.of_stays (Run.atLine_spec trivial)) fun _ _ m n hw => ?_
  have hin : InStep base own shows m n := hw
  obtain ⟨es, out, hm, hn, -⟩ := hin.engine
  rw [run_member_append j hm.buffer, run_member_append j hn.buffer]
  exact ⟨rfl, rfl, hw⟩

/-- The plain text of a value is put out in both modes. -/
theorem giveTexts_plain {j : Nat} (ho : (operations j).Within (modeLikeness base own shows))
    (hv : v.Within (modeLimits base own shows)) :
    GiveTexts base own shows (do return .str (← plainText (operations j) v))
      (do return .str (← plainText (operations j) v)) :=
  .of_both (.of_stays (plainText_spec ho hv)) fun t _ => .pure (e := ⟨t, false⟩) nofun

/-- The text of a value is put out in text mode, and its escape in HTML mode. -/
theorem giveTexts_escaped {j : Nat} (ho : (operations j).Within (modeLikeness base own shows))
    (hv : v.Within (modeLimits base own shows)) (hshows : shows) :
    GiveTexts base own shows (Escaper.apply (operations j) .text v)
      (Escaper.apply (operations j) .html v) :=
  .of_both (.of_stays (plainText_spec ho hv)) fun t _ => .pure (e := ⟨t, true⟩) fun _ => hshows

/-- A call of the function that makes plain text. -/
theorem giveTexts_call_plain {j : Nat} (ho : (operations j).Within (modeLikeness base own shows))
    {vs : List Value} {named : Members} (hvs : Value.AllWithin (modeLimits base own shows) vs)
    (hnamed : named.Within (modeLimits base own shows)) :
    GiveTexts base own shows ((operations (j + 1)).call (.native .plainText) vs named)
      ((operations (j + 1)).call (.native .plainText) vs named) := by
  have hslots : ParamSlot.AllWithin (modeLimits base own shows) [ContextMethod.required "value"] :=
    List.forall_mem_singleton.2 trivial
  exact .of_both (.of_gives (Binding.bind_spec hslots hvs hnamed)) fun bound hbound =>
    giveTexts_plain ho (hbound.ifWithin_find?.getD (v := .none) trivial)

/-- A call of the escape of a context. -/
theorem giveTexts_call_escape {j : Nat} (ho : (operations j).Within (modeLikeness base own shows))
    {vs : List Value} {named : Members} (hvs : Value.AllWithin (modeLimits base own shows) vs)
    (hnamed : named.Within (modeLimits base own shows)) (hshows : shows) :
    GiveTexts base own shows ((operations (j + 1)).call (.method (.ref ⟨own + 1⟩) "escape") vs named)
      ((operations (j + 1)).call (.method (.ref ⟨own + 1⟩) "escape") vs named) := by
  intro m n hw
  obtain ⟨es, out, hm, hn, -⟩ := hw.engine
  rw [run_call_contextEscape hm.context, run_call_contextEscape hn.context]
  obtain ⟨ms, hms, hbind⟩ | ⟨message, hbind⟩ := Binding.bind_escape hvs hnamed
  · rw [EStateM.run_bind, EStateM.run_bind, hbind, hbind]
    exact giveTexts_escaped ho (hms.ifWithin_find?.getD (v := .none) trivial) hshows m n hw
  · have hfails := Pairs.triple_iff.1 ((modeLikeness base own shows).gives_of_fails
      (P := fun _ : Value => True) (x := Run.typeError message) Run.typeError_spec) m n hw
    have hrun {α : Type} (m : Machine) : (Run.typeError message : Run α).run m =
      .error (.raised m.fresh) (m.push (Run.exceptionObject .typeError message m.line)) := rfl
    rw [EStateM.run_bind, EStateM.run_bind, hbind, hbind, hrun, hrun]
    rw [hrun, hrun] at hfails
    exact hfails

/-- What is put out is evaluated to texts in both modes. -/
theorem giveTexts_eval {j : Nat} (ho : ∀ i ≤ j + 2, (operations i).Within (modeLikeness base own shows))
    (henv : env.Within (modeLimits base own shows)) {e : Expr} {inner : List Script.Argument}
    (he : Emits shows e inner) (hinner : ∀ a ∈ inner, a.Within (modeLimits base own shows)) :
    GiveTexts base own shows ((operations (j + 2)).eval env e) ((operations (j + 2)).eval env e) := by
  have hj := ho j (by omega)
  have hops := ho (j + 1) (by omega)
  cases he with
  | @text _ s => exact .pure (e := ⟨s, false⟩) nofun
  | plain =>
    refine .of_both (both_name henv (by simp [reservedNames]) (fun es h => h.plain) _ j) fun f hf => ?_
    subst hf
    have hplain : Value.Within (modeLimits base own shows) (.native .plainText) := by simp
    refine .of_both (.of_gives (Eval.arguments_spec hops henv trivial hplain hinner)) fun r hr => ?_
    refine .of_both (.of_stays (Run.atLine_spec trivial)) fun _ _ => ?_
    exact giveTexts_call_plain hj hr.1 hr.2
  | escaped hshows =>
    refine .of_both (both_name henv (by simp [reservedNames]) (fun es h => h.escape) _ j) fun f hf => ?_
    subst hf
    have hname : (modeLikeness base own shows).Both (fun _ => True)
        (Eval.calleeName (.method (.ref ⟨own + 1⟩) "escape"))
        (Eval.calleeName (.method (.ref ⟨own + 1⟩) "escape")) := fun m n hw => by
      obtain ⟨es, out, hm, hn, -⟩ := InStep.engine hw
      rw [run_calleeName_escape hm.context, run_calleeName_escape hn.context]
      exact ⟨rfl, trivial, hw⟩
    refine .of_both (Eval.both_arguments hops henv trivial hname hinner) fun r hr => ?_
    refine .of_both (.of_stays (Run.atLine_spec trivial)) fun _ _ => ?_
    exact giveTexts_call_escape hj hr.1 hr.2 hshows

/-- Calls that put something out keep machines in step. -/
theorem wraps_append (n : Nat) (ho : ∀ j ≤ n, (operations j).Within (modeLikeness base own shows)) :
    Eval.Wraps (modeLikeness base own shows) (operations n) := by
  rintro env line _ _ inner henv hl ⟨l, l', l'', e, rfl, rfl, he⟩ hinner
  refine Likeness.gives_of_run fun m₁ m₂ hw => ?_
  obtain _ | _ | j := n
  · exact ⟨rfl, trivial, hw⟩
  · exact ⟨rfl, trivial, hw⟩
  have harg (f : Value) : Eval.arguments (operations (j + 2)) env line f [.positional e] = do
      let v ← (operations (j + 2)).eval env e
      return ([v], []) := by
    simp [Eval.arguments, Eval.positionalArguments, Eval.namedArguments]
  refine (Likeness.Both.bind (both_appender henv l l' l'' j) fun f hf => ?_) m₁ m₂ hw
  subst hf
  rw [harg, bind_assoc]
  refine (giveTexts_eval ho henv he hinner).bind fun t ht => ?_
  rw [pure_bind, pure_bind]
  have hline : (modeLimits base own shows).line l'' := trivial
  refine .bind (.of_stays (Run.atLine_spec hline)) fun _ _ m₁ m₂ hw => ?_
  obtain ⟨m', n', hin, hm, hn⟩ := InStep.run_append hw ht (j + 1)
  have hends : Pairs.Ends ((modeLikeness base own shows).gives (Value.Within (modeLimits base own shows)))
      (.ok .none m') (.ok .none n') := ⟨rfl, trivial, hin⟩
  rw [← hm, ← hn] at hends
  exact hends

/-- The interpreter keeps machines in step. -/
theorem inStep_operations (n : Nat) : (operations n).Within (modeLikeness base own shows) :=
  within_operations wraps_append n

/-! ## Bindings -/

/-- The objects that a machine has over another are within limits. -/
def Script.Machine.AddsWithin (L : Limits) (m m' : Machine) : Prop :=
  ∀ a : Address, m.heap.size ≤ a.index → Object.IfWithin L (m'.object? a)

variable {L : Limits}

theorem addsWithin_refl (m : Machine) : m.AddsWithin L m := fun a ha => by
  rw [Machine.object?_of_le ha]
  trivial

theorem Script.Machine.AddsWithin.trans {m m' m'' : Machine} (h : m.AddsWithin L m') (h' : m'.AddsWithin L m'')
    (he : m'.Extends m'') : m.AddsWithin L m'' := by
  intro a ha
  by_cases hlt : a.index < m'.heap.size
  · rw [he.object? hlt]
    exact h a ha
  · exact h' a (Nat.le_of_not_lt hlt)

theorem Script.Machine.AddsWithin.push {m m' : Machine} (h : m.AddsWithin L m') {o : Object} (ho : o.Within L) :
    m.AddsWithin L (m'.push o) := by
  intro a ha
  rw [Machine.object?_push]
  split
  · exact ho
  · exact h a ha

/-- New objects are at addresses within limits. -/
def Script.Machine.Room (L : Limits) (m m' : Machine) : Prop :=
  ∀ a : Address, m.heap.size ≤ a.index → a.index < m'.heap.size → L.address a

mutual

/-- The value that is made for a data tree is within limits, with the objects that are made for it. -/
theorem within_ofData : (d : Data) → d.isJson → {m m' : Machine} → {v : Value} →
    (Value.ofData d).run m = .ok v m' → m.Room L m' → v.Within L ∧ m.AddsWithin L m'
  | .none, _, m, _, _, h, _ => by
    rw [Value.ofData] at h
    cases h
    exact ⟨trivial, addsWithin_refl m⟩
  | .bool _, _, m, _, _, h, _ => by
    rw [Value.ofData] at h
    cases h
    exact ⟨trivial, addsWithin_refl m⟩
  | .int _, _, m, _, _, h, _ => by
    rw [Value.ofData] at h
    cases h
    exact ⟨trivial, addsWithin_refl m⟩
  | .float _, _, m, _, _, h, _ => by
    rw [Value.ofData] at h
    cases h
    exact ⟨trivial, addsWithin_refl m⟩
  | .str _, _, m, _, _, h, _ => by
    rw [Value.ofData] at h
    cases h
    exact ⟨trivial, addsWithin_refl m⟩
  | .list items, hjson, m, _, _, h, hroom => by
    rw [Data.isJson] at hjson
    obtain ⟨vs, m₁, hrun, hext, -⟩ := run_ofItems items hjson m
    rw [Value.ofData, EStateM.run_bind, hrun] at h
    cases h
    obtain ⟨hvs, hadds⟩ := within_ofItems items hjson hrun
      fun a ha hlt => hroom a ha (hlt.trans (by simp))
    have hfresh : L.address m₁.fresh := hroom _ hext.size_le (by simp [Machine.fresh])
    exact ⟨hfresh, hadds.push (by simpa using hvs)⟩
  | .dict entries, hjson, m, _, _, h, hroom => by
    rw [Data.isJson] at hjson
    obtain ⟨es, m₁, hrun, hext, -⟩ := run_ofEntries entries hjson m
    rw [Value.ofData, EStateM.run_bind, hrun] at h
    cases h
    obtain ⟨hes, hadds⟩ := within_ofEntries entries hjson hrun
      fun a ha hlt => hroom a ha (hlt.trans (by simp))
    have hfresh : L.address m₁.fresh := hroom _ hext.size_le (by simp [Machine.fresh])
    exact ⟨hfresh, hadds.push hes⟩
  | .tuple _, hjson, _, _, _, _, _ => absurd hjson (by rw [Data.isJson]; exact Bool.false_ne_true)
  | .callable, hjson, _, _, _, _, _ => absurd hjson (by rw [Data.isJson]; exact Bool.false_ne_true)
  | .other _ _ _, hjson, _, _, _, _, _ => absurd hjson (by rw [Data.isJson]; exact Bool.false_ne_true)

theorem within_ofItems : (ds : List Data) → Data.areJson ds → {m m' : Machine} → {vs : List Value} →
    (Value.ofItems ds).run m = .ok vs m' → m.Room L m' →
    Value.AllWithin L vs ∧ m.AddsWithin L m'
  | [], _, m, _, _, h, _ => by
    rw [Value.ofItems] at h
    cases h
    exact ⟨trivial, addsWithin_refl m⟩
  | d :: ds, hjson, m, _, _, h, hroom => by
    rw [Data.areJson, Bool.and_eq_true] at hjson
    obtain ⟨v, m₁, hrun, hext, -⟩ := run_ofData d hjson.1 m
    obtain ⟨vs, m₂, hrun', hext', -⟩ := run_ofItems ds hjson.2 m₁
    rw [Value.ofItems, EStateM.run_bind, hrun] at h
    simp only [EStateM.run_bind, hrun'] at h
    cases h
    obtain ⟨hv, hadds⟩ := within_ofData d hjson.1 hrun
      fun a ha hlt => hroom a ha (Nat.lt_of_lt_of_le hlt hext'.size_le)
    obtain ⟨hvs, hadds'⟩ := within_ofItems ds hjson.2 hrun'
      fun a ha hlt => hroom a (hext.size_le.trans ha) hlt
    exact ⟨⟨hv, hvs⟩, hadds.trans hadds' hext'⟩

theorem within_ofEntries : (ds : List (Data × Data)) → Data.areJsonEntries ds → {m m' : Machine} →
    {es : Entries} → (Value.ofEntries ds).run m = .ok es m' → m.Room L m' →
    es.Within L ∧ m.AddsWithin L m'
  | [], _, m, _, _, h, _ => by
    rw [Value.ofEntries] at h
    cases h
    exact ⟨Entries.within_nil, addsWithin_refl m⟩
  | (.str name, d) :: ds, hjson, m, _, _, h, hroom => by
    rw [Data.areJsonEntries, Bool.and_eq_true] at hjson
    obtain ⟨v, m₁, hrun, hext, -⟩ := run_ofData d hjson.1 m
    obtain ⟨es, m₂, hrun', hext', -⟩ := run_ofEntries ds hjson.2 m₁
    rw [Value.ofEntries, Value.ofData] at h
    simp only [EStateM.run_bind, EStateM.run_pure, hrun, hrun'] at h
    cases h
    obtain ⟨hv, hadds⟩ := within_ofData d hjson.1 hrun
      fun a ha hlt => hroom a ha (Nat.lt_of_lt_of_le hlt hext'.size_le)
    obtain ⟨hes, hadds'⟩ := within_ofEntries ds hjson.2 hrun'
      fun a ha hlt => hroom a (hext.size_le.trans ha) hlt
    exact ⟨Entries.within_cons.2 ⟨⟨trivial, hv⟩, hes⟩, hadds.trans hadds' hext'⟩

end

/-! ## Starts -/

variable {m : Machine} {es : Entries} {names : List String}

/-- The machine on which a template for text or for HTML starts with a mapping: it has a new context, the
iterator that has gone through its names, the list of the output and the namespace. -/
def modeStart (html : Bool) (es : Entries) (names : List String) (i : Iterator) (m : Machine) : Machine :=
  startMachine (((contextMachine html es m).push (.iterator i)).push (.list #[]))
    (engineSpace (gathered (es.writeAll []) names []) ⟨m.heap.size + 1⟩ ⟨m.heap.size + 3⟩)

theorem size_modeStart (html : Bool) (i : Iterator) :
    (modeStart html es names i m).heap.size = m.heap.size + 5 := by
  change (((((m.push _).push _).push _).push _).push _).heap.size = _
  simp only [Machine.size_push]

/-- Five objects are new when a template starts. -/
theorem object?_modeStart (html : Bool) (i : Iterator) {a : Address}
    (ha : a.index < m.heap.size ∨ m.heap.size + 5 ≤ a.index) :
    (modeStart html es names i m).object? a = m.object? a := by
  change (((((m.push _).push _).push _).push _).push _).object? a = _
  simp only [Machine.object?_push, Machine.size_push]
  rw [if_neg (by omega), if_neg (by omega), if_neg (by omega), if_neg (by omega), if_neg (by omega)]

theorem engineObjects_modeStart (html : Bool) (i : Iterator) :
    EngineObjects m.heap.size html
      (engineSpace (gathered (es.writeAll []) names []) ⟨m.heap.size + 1⟩ ⟨m.heap.size + 3⟩) []
      (modeStart html es names i m) where
  globals := by
    change Machine.fresh ((((m.push _).push _).push _).push _) = _
    simp [Machine.fresh]
  context := by
    change (((((m.push _).push _).push _).push _).push _).object? _ = _
    simp [Machine.object?_push, Machine.fresh]
  buffer := by
    change (((((m.push _).push _).push _).push _).push _).object? _ = _
    simp [Machine.object?_push, writtenAll]
  space := by
    change (((((m.push _).push _).push _).push _).push _).object? _ = _
    simp [Machine.object?_push]

/-- The names of the engine and of bindings within limits. -/
theorem engineNames_engineSpace (hes : es.Within (modeLimits base own shows)) (hnames : es.Named names) :
    EngineNames base own shows (engineSpace (gathered es names []) ⟨own + 1⟩ ⟨own + 3⟩) := by
  obtain ⟨hbuffer, hescape, hplain, hrest⟩ :=
    named?_engineSpace (gathered es names []) ⟨own + 1⟩ ⟨own + 3⟩
  refine ⟨hbuffer, hescape, hplain, fun id hid => ?_⟩
  by_cases hengine : id ∈ engineNames
  · simp only [reservedNames, engineNames, List.mem_cons, List.not_mem_nil, or_false, not_or] at hid hengine
    obtain rfl : id = "__builtins__" := by tauto
    simp [engineSpace, Entries.named?_insert, Render.bufferName]
  · rw [hrest id hengine, named?_gathered hnames]
    exact hes.ifWithin_named?

/-- Templates for text and for HTML start in step. -/
theorem inStep_modeStart {m₀ : Machine} (hext : m₀.Extends m)
    (hadds : m₀.AddsWithin (modeLimits m₀.heap.size m.heap.size shows) m)
    (hes : (es.writeAll []).Within (modeLimits m₀.heap.size m.heap.size shows))
    (hnames : (es.writeAll []).Named names) (i j : Iterator) :
    InStep m₀.heap.size m.heap.size shows (modeStart false es names i m) (modeStart true es names j m) where
  agree := by
    refine ⟨by rw [size_modeStart, size_modeStart], fun a ha => ?_⟩
    rw [object?_modeStart false i ha.2, object?_modeStart true j ha.2]
    exact ⟨rfl, hadds a ha.1⟩
  room := ⟨hext.size_le, by rw [size_modeStart]⟩
  line := rfl
  depth := rfl
  showing := rfl
  printed := rfl
  handling := ⟨rfl, nofun⟩
  engine := ⟨_, [], engineObjects_modeStart false i, engineObjects_modeStart true j,
    engineNames_engineSpace hes hnames, nofun⟩

/-! ## Ends -/

/-- What a template gives in text mode and in HTML mode: the same error, or the same pieces of output but
for the escape. -/
def SameButEscaped (shows : Prop) (r s : Except RenderError String) : Prop :=
  (∃ e, r = .error e ∧ s = .error e) ∨
    ∃ out : List Emission, r = .ok (String.join (writtenAll false out)) ∧
      s = .ok (String.join (writtenAll true out)) ∧ ∀ e ∈ out, e.Allowed shows

theorem SameButEscaped.error (shows : Prop) (e : RenderError) : SameButEscaped shows (.error e) (.error e) :=
  .inl ⟨e, rfl, rfl⟩

/-- Two computations of the machine have come to what a template gives in each mode, or they stop short
for the same reason. -/
def EndInModes (base own : Nat) (shows : Prop) :
    EStateM.Result Stop Machine (Except RenderError String × LogEntry) →
      EStateM.Result Stop Machine (Except RenderError String × LogEntry) → Prop
  | .ok r _, .ok s _ => SameButEscaped shows r.1 s.1
  | .error .exhausted _, .error .exhausted _ => True
  | .error (.raised e) m, .error (.raised f) n =>
    e = f ∧ (modeLimits base own shows).address e ∧ InStep base own shows m n
  | _, _ => False

theorem EndInModes.of_error {s t : Stop} {m n : Machine} (h : s = t ∧
    s.Within (modeLimits base own shows) ∧ InStep base own shows m n) :
    EndInModes base own shows (.error s m) (.error t n) := by
  obtain ⟨rfl, hs, hw⟩ := h
  cases s with
  | exhausted => trivial
  | raised e => exact ⟨rfl, hs, hw⟩

variable {n : Machine} {program : Program} {body : List Stmt}

/-- The output is put together in both modes, or both use the steps up. -/
theorem ends_output (hw : InStep base own shows m n) (steps : Nat) :
    EndInModes base own shows ((concluded (operations steps) program none).run m)
      ((concluded (operations steps) program none).run n) := by
  obtain ⟨es, out, hm, hn, hnames, hout⟩ := hw.engine
  have hes : m.object? m.globals = some (.dict es) := by rw [hm.globals, hm.space]
  have hfs : n.object? n.globals = some (.dict es) := by rw [hn.globals, hn.space]
  have hlength (html : Bool) : (writtenAll html out).length = out.length := List.length_map _
  rw [concluded, EStateM.run_bind, EStateM.run_bind]
  by_cases hsteps : out.length + 2 ≤ steps
  · obtain ⟨m', hrun⟩ := run_output hes hnames.buffer hm.buffer
    obtain ⟨n', hrun'⟩ := run_output hfs hnames.buffer hn.buffer
    rw [hrun steps (by rwa [hlength]), hrun' steps (by rwa [hlength])]
    exact .inr ⟨out, rfl, rfl, hout⟩
  · have hlt : steps < out.length + 2 := Nat.lt_of_not_le hsteps
    obtain ⟨m', hrun⟩ := run_output_exhausted hes hnames.buffer hm.buffer (n := steps) (by rwa [hlength])
    obtain ⟨n', hrun'⟩ := run_output_exhausted hfs hnames.buffer hn.buffer (n := steps) (by rwa [hlength])
    rw [hrun, hrun']
    trivial

/-- An exception is reported in the same way in both modes. -/
theorem ends_failure (hw : InStep base own shows m n) {e : Address} (he : (modeLimits base own shows).address e)
    (steps : Nat) : EndInModes base own shows ((concluded (operations steps) program (some e)).run m)
      ((concluded (operations steps) program (some e)).run n) := by
  have hreport : ⦃(modeLikeness base own shows).inside⦄ Render.failure (operations steps) program true e
      ⦃(modeLikeness base own shows).stays⦄ := Render.failure_spec (inStep_operations steps) he
  have hfailure := Pairs.triple_iff.1 hreport m n hw
  rw [concluded, EStateM.run_bind, EStateM.run_bind]
  cases hm : (Render.failure (operations steps) program true e).run m <;>
    cases hn : (Render.failure (operations steps) program true e).run n <;> rw [hm, hn] at hfailure
  case error.error => exact .of_error hfailure
  case ok.ok =>
    obtain ⟨rfl, -⟩ := hfailure
    exact .error shows _
  all_goals exact hfailure.elim

/-- Statements that are run in step come to what the template gives in each mode. -/
theorem ends_statements (hw : InStep base own shows m n)
    (hbody : ∀ s ∈ body, s.Within (modeLimits base own shows)) (steps : Nat) :
    EndInModes base own shows
      ((endedBy (operations steps) body >>= concluded (operations steps) program).run m)
      ((endedBy (operations steps) body >>= concluded (operations steps) program).run n) := by
  have hended := Pairs.triple_iff.1 (Render.endedBy_spec (inStep_operations steps) hbody) m n hw
  rw [EStateM.run_bind, EStateM.run_bind]
  cases hm : (endedBy (operations steps) body).run m <;>
    cases hn : (endedBy (operations steps) body).run n <;> rw [hm, hn] at hended
  case error.error => exact .of_error hended
  case ok.ok e _ _ _ =>
    obtain ⟨rfl, he, hw'⟩ := hended
    cases e with
    | none => exact ends_output hw' steps
    | some e => exact ends_failure hw' (he e rfl) steps
  all_goals exact hended.elim

/-- A rendering gives what its computation of the machine has come to. -/
theorem sameButEscaped_ofRunBy {x y : Run (Except RenderError String × LogEntry)}
    (h : EndInModes base own shows (x.run m) (y.run n)) (steps : Nat) (log : Array LogEntry) :
    ∃ r s m' n', (Rendering.ofRunBy (operations steps) x).run.run (m, log) = (r, (m', log)) ∧
      (Rendering.ofRunBy (operations steps) y).run.run (n, log) = (s, (n', log)) ∧
      SameButEscaped shows (afterBody m' log r).1 (afterBody n' log s).1 := by
  rw [run_ofRunBy_eq, run_ofRunBy_eq]
  cases hx : x.run m <;> cases hy : y.run n <;> rw [hx, hy] at h
  case ok.ok => exact ⟨_, _, _, _, rfl, rfl, h⟩
  case error.error s m' t n' =>
    cases s <;> cases t <;> try exact h.elim
    case exhausted.exhausted => exact ⟨_, _, _, _, rfl, rfl, .error shows _⟩
    case raised.raised e f =>
      obtain ⟨rfl, he, hw⟩ := h
      have huncaught := Pairs.triple_iff.1 (Render.uncaught_spec (inStep_operations steps) he) m' n' hw
      dsimp only
      cases hr : (Render.uncaught (operations steps) e).run m' <;>
        cases hs : (Render.uncaught (operations steps) e).run n' <;> rw [hr, hs] at huncaught
      case ok.ok =>
        obtain ⟨rfl, -⟩ := huncaught
        exact ⟨_, _, _, _, rfl, rfl, .error shows _⟩
      case error.error => exact ⟨_, _, _, _, rfl, rfl, .error shows _⟩
      all_goals exact huncaught.elim
  case ok.error s _ => cases s <;> exact h.elim
  case error.ok s _ _ _ => cases s <;> exact h.elim

variable (base own) in
/-- A program gives what its statements have come to. -/
theorem sameButEscaped_runBy {c : Value} {steps : Nat} (h : ∀ body, program.body = some body →
      EndInModes base own shows ((Render.runBody (operations steps) program true body c).run m)
        ((Render.runBody (operations steps) program true body c).run n)) (log : Array LogEntry) :
    ∃ r s last last', (program.runBy (operations steps) true c).run.run (m, log) = (r, last) ∧
      (program.runBy (operations steps) true c).run.run (n, log) = (s, last') ∧
      SameButEscaped shows r s := by
  cases hbody : program.body with
  | none =>
    have hrun (m : Machine) : (program.runBy (operations steps) true c).run.run (m, log) =
        (.error (.notRunnable program.name), (m, log)) := by
      rw [Program.runBy, hbody]
      rfl
    exact ⟨_, _, _, _, hrun m, hrun n, .error shows _⟩
  | some body =>
    obtain ⟨r, s, m', n', hrun, hrun', hsame⟩ := sameButEscaped_ofRunBy (h body hbody) steps log
    rw [run_runBy_eq hbody hrun, run_runBy_eq hbody hrun']
    exact ⟨_, _, _, _, rfl, rfl, hsame⟩

/-! ## Templates -/

/-- Two templates start in step with a value and run their statements in step, or both use the steps up
before they start. -/
def StepTogether (base own : Nat) (shows : Prop) (ops : Ops) (t u : Template) (v : Value) (m : Machine) :
    Prop :=
  (∃ a b m₂ m₃, (t.start ops v).run m = .ok a m₂ ∧ (u.start ops v).run m = .ok b m₃ ∧
    InStep base own shows a b ∧ ∀ body, t.program.body = some body →
      Pairs.Ends ((modeLikeness base own shows).gives (Outcome.Within (modeLimits base own shows)))
        ((ops.resume Env.top .proceed [.run body]).run a) ((ops.resume Env.top .proceed [.run body]).run b)) ∨
  ∃ m₂ m₃, (t.start ops v).run m = .error .exhausted m₂ ∧ (u.start ops v).run m = .error .exhausted m₃

/-- A program that mentions reserved names only where it puts something out, and where `shows` fails
without escaping it. -/
def Program.KeepsToOwnNames (shows : Prop) (p : Program) : Prop :=
  ∀ body, p.body = some body → ∀ base own, ∀ s ∈ body, s.Within (modeLimits base own shows)

section

variable {a : Address} {bindings : List (String × Data)} (html : Bool)
  (hentries : DenoteEntries m m.heap.size es (mappingOf bindings))
  (hnames : (es.writeAll []).Named names)
include hentries hnames

/-- The namespace of a template that is rendered with a mapping is made with enough steps. -/
theorem run_namespaceOf_mapping : ∃ i, ∀ n, names.length + 2 ≤ n →
    (Render.namespaceOf (operations n) (.ref (contextAddress es m))).run (contextMachine html es m) =
      .ok (engineSpace (gathered (es.writeAll []) names []) ⟨m.heap.size + 1⟩ ⟨m.heap.size + 3⟩)
        (((contextMachine html es m).push (.iterator i)).push (.list #[])) := by
  obtain ⟨hcontext, hvars, -⟩ := contextMachine_holds html hentries
  obtain ⟨i, hspace⟩ := run_namespaceOf hcontext hvars hnames
  have hplace : contextAddress es m = ⟨m.heap.size + 1⟩ := congrArg Address.mk (Machine.size_push _ _)
  have hbuffer : ((contextMachine html es m).push (.iterator i)).fresh = ⟨m.heap.size + 3⟩ := by
    simp [contextMachine, Machine.fresh]
  rw [hplace, hbuffer] at hspace
  rw [hplace]
  exact ⟨i, hspace⟩

/-- Without enough steps none is made. -/
theorem run_bindings_mapping_exhausted {n : Nat} (hn : n < names.length + 2) : ∃ m',
    (Context.bindings (operations n) (.ref (contextAddress es m))).run (contextMachine html es m) =
      .error .exhausted m' := by
  obtain ⟨hcontext, hvars, -⟩ := contextMachine_holds html hentries
  obtain ⟨m', hrun, -⟩ := run_bindings_exhausted hcontext hvars hnames hn
  exact ⟨m', hrun⟩

end

section

variable {m₀ : Machine} {a : Address} {bindings : List (String × Data)} {p : Program}
  (hext : m₀.Extends m) (hadds : m₀.AddsWithin (modeLimits m₀.heap.size m.heap.size shows) m)
  (hv : (modeLimits m₀.heap.size m.heap.size shows).address a) (hobject : m.object? a = some (.dict es))
  (hentries : DenoteEntries m m.heap.size es (mappingOf bindings)) (hown : p.KeepsToOwnNames shows)
include hext hadds hv hobject hentries hown

/-- Renderings with a mapping in both modes run in step and give the same but for the escape. -/
theorem renderings_in_step (k : Nat) (log : Array LogEntry) :
    StepTogether m₀.heap.size m.heap.size shows (operations (k + 1)) ⟨p, false, none⟩ ⟨p, true, none⟩
        (.ref a) m ∧
      ∃ r s last last',
        ((⟨p, false, none⟩ : Template).renderBy (operations (k + 1)) (.ref a)).run.run (m, log) = (r, last) ∧
        ((⟨p, true, none⟩ : Template).renderBy (operations (k + 1)) (.ref a)).run.run (m, log) = (s, last') ∧
        SameButEscaped shows r s := by
  have hes : es.Within (modeLimits m₀.heap.size m.heap.size shows) := by
    have hdict := hadds a hv.1
    rw [hobject] at hdict
    exact hdict
  have hall : (es.writeAll []).Within (modeLimits m₀.heap.size m.heap.size shows) :=
    Entries.Within.foldl Entries.within_nil fun acc hacc e he =>
      hacc.insert (hes.of_mem he).1 (hes.of_mem he).2
  have hnamed := named_mappingOf hentries
  have hempty : Entries.Named [] [] := rfl
  obtain ⟨names, hnames⟩ := hnamed.writeAll hempty
  rw [StepTogether, run_renderBy_eq false hobject hnamed, run_renderBy_eq true hobject hnamed]
  have hstart (html : Bool) : ((⟨p, html, none⟩ : Template).start (operations (k + 1)) (.ref a)).run m =
      (do
        let space ← Render.namespaceOf (operations (k + 1)) (.ref (contextAddress es m))
        return startMachine (← get) space : Run Machine).run (contextMachine html es m) := by
    rw [Template.start, EStateM.run_bind, run_contextOf_dict hobject, run_newContext html hnamed]
  rw [hstart, hstart]
  by_cases hsteps : names.length + 2 ≤ k + 1
  · obtain ⟨i, hspace⟩ := run_namespaceOf_mapping false hentries hnames
    obtain ⟨j, hspace'⟩ := run_namespaceOf_mapping true hentries hnames
    have hin := inStep_modeStart hext hadds hall hnames i j
    refine ⟨.inl ⟨_, _, _, _, by rw [EStateM.run_bind, hspace _ hsteps]; rfl,
      by rw [EStateM.run_bind, hspace' _ hsteps]; rfl, hin, fun body hbody => ?_⟩, ?_⟩
    · have henv := Env.top_within (modeLimits m₀.heap.size m.heap.size shows)
      have htasks : ∀ t ∈ [Task.run body], t.Within (modeLimits m₀.heap.size m.heap.size shows) :=
        List.forall_mem_singleton.2 (hown body hbody _ _)
      have hsignal : Signal.Within (modeLimits m₀.heap.size m.heap.size shows) .proceed := trivial
      exact Pairs.triple_iff.1 ((inStep_operations (k + 1)).resume henv hsignal htasks) _ _ hin
    · refine sameButEscaped_runBy m₀.heap.size m.heap.size (fun body hbody => ?_) log
      rw [run_runBody_eq p body (hspace _ hsteps), run_runBody_eq p body (hspace' _ hsteps)]
      exact ends_statements hin (hown body hbody _ _) (k + 1)
  · obtain ⟨m₂, hspace⟩ := run_bindings_mapping_exhausted false hentries hnames (Nat.lt_of_not_le hsteps)
    obtain ⟨m₃, hspace'⟩ := run_bindings_mapping_exhausted true hentries hnames (Nat.lt_of_not_le hsteps)
    refine ⟨.inr ⟨m₂, m₃, ?_, ?_⟩, sameButEscaped_runBy m₀.heap.size m.heap.size
      (fun body _ => ?_) log⟩
    · rw [EStateM.run_bind, Render.namespaceOf, EStateM.run_bind, hspace]
    · rw [EStateM.run_bind, Render.namespaceOf, EStateM.run_bind, hspace']
    · rw [run_runBody_exhausted p body hspace, run_runBody_exhausted p body hspace']
      trivial

end

end

/-! ## Main statement -/

/-- The characters that are replaced for HTML. -/
def Escape.specialChars : List Char := ['&', '<', '>', Char.ofNat 34, Char.ofNat 39]

/-- A text without characters that are replaced for HTML is its own escape. -/
theorem Escape.htmlString_eq_self {s : String} (h : ∀ c ∈ s.toList, c ∉ Escape.specialChars) :
    Escape.htmlString s = s := by
  have hchar (c : Char) (hc : c ∉ Escape.specialChars) : Escape.htmlChar c = [c] := by
    simp only [Escape.specialChars, List.mem_cons, List.not_mem_nil, or_false, not_or] at hc
    obtain ⟨hamp, hless, hgreater, hquote, hmark⟩ := hc
    rw [Escape.htmlChar, if_neg hamp, if_neg hless, if_neg hgreater, if_neg hquote, if_neg hmark]
  have hhtml : Escape.html s.toList = s.toList := by
    rw [Escape.html, List.flatMap_congr fun c hc => hchar c (h c hc)]
    exact List.flatMap_singleton' _
  rw [Escape.htmlString, hhtml, String.ofList_toList]

/-- Pieces of output are the same in both modes when the escaped ones have no characters to replace. -/
theorem writtenAll_eq {out : List Emission}
    (h : ∀ e ∈ out, e.escaped = true → ∀ c ∈ e.text.toList, c ∉ Escape.specialChars) :
    writtenAll true out = writtenAll false out := by
  refine List.map_congr_left fun e he => ?_
  cases hescaped : e.escaped with
  | false => simp [Emission.write, hescaped]
  | true => simp [Emission.write, hescaped, Escape.htmlString_eq_self (h e he hescaped)]

/-- A name of a template's own is not reserved. -/
theorem Tree.Name.notMem_reservedNames (x : Name) : x.id ∉ reservedNames := by
  obtain ⟨hengine, hbuiltin⟩ := x.notMem_engineNames
  intro hmem
  simp only [reservedNames, List.mem_cons, List.not_mem_nil, or_false] at hmem
  rcases hmem with hid | hid | hid | hid | hid | hid <;> rw [hid] at hengine hbuiltin
  case inr.inr.inr.inr.inl =>
    revert hbuiltin
    decide +kernel
  case inr.inr.inr.inr.inr =>
    revert hbuiltin
    decide +kernel
  all_goals simp [engineNames, Render.bufferName] at hengine

/-- Block trees mention reserved names only where they put something out. -/
theorem Tree.admits_modeLimits (base own : Nat) : Admits (modeLimits base own True) := by
  have happend {line : Nat} {e : Expr} {inner : List Script.Argument} (he : Emits True e inner)
      (hinner : ∀ a ∈ inner, a.Within (modeLimits base own True)) :
      (appendStmt line e).Within (modeLimits base own True) :=
    .expr trivial (.wrapped trivial ⟨line, line, line, e, rfl, rfl, he⟩ hinner)
  refine ⟨fun _ => trivial, Name.notMem_reservedNames, fun line t => happend .text nofun,
    fun line escaped x => ?_⟩
  have harg : ∀ a ∈ [Argument.positional (.name line x.id)], a.Within (modeLimits base own True) :=
    List.forall_mem_singleton.2 (.positional (.name trivial x.notMem_reservedNames))
  cases escaped with
  | true => exact happend (.escaped trivial) harg
  | false => exact happend .plain harg

/-- The program of a block tree. -/
theorem Tree.compiled_segmentsAll (name : String) (strict : Bool) {ns : List Node} (hdepth : depthAll ns ≤ 20) :
    ∃ p, compiled name strict (Instruction.ofSegments (segmentsAll ns)) = .ok p ∧
      p.body = some (stmtsAll 1 ns) := by
  obtain ⟨b, hgenerate, hholds⟩ := generate_segmentsAll name strict ns
  have hcheck : check b.text = .ok (stmtsAll 1 ns) := by rw [hholds.text, check_programText hdepth]
  have hchecked : checkGenerated b.text name b.lineMap = .ok (stmtsAll 1 ns) := by
    rw [checkGenerated, hcheck]
  refine ⟨⟨Instruction.ofSegments (segmentsAll ns), b.text, name, b.lineMap, some (stmtsAll 1 ns)⟩, ?_, rfl⟩
  have hok {α β : Type} (a : α) (f : α → Except CompileError β) : (Except.ok a >>= f) = f a := rfl
  rw [compiled, hgenerate, hok, hchecked, hok]
  rfl

/-- The rows of a list, each before a comma, in brackets. -/
def bracketTree : List Node :=
  let row : Name := ⟨"row", by decide +kernel⟩
  [.text "[".toList 1,
    .loop ⟨1, true⟩ row ⟨"rows", by decide +kernel⟩ [.output true row 1, .text ",".toList 1]
      ⟨"endfor".toList, 1, by decide +kernel⟩,
    .text "]".toList 1]

/-- The rows in brackets as a template. -/
def bracketText : Text := "[<% for row in rows: %><%= row %>,<% endfor %>]".toList

end Stencil
