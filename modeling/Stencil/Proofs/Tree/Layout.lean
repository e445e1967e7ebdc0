import Stencil.Proofs.Script.Evaluation
import Stencil.Proofs.Script.Iterated
import Stencil.Proofs.Script.Shown
import Stencil.Proofs.Tree.Basic
import Stencil.Proofs.Tree.Rows

/-!
# The machine of a block tree

While the program of a tree runs, the machine keeps the values of names and the output so far at places
of its own. The data of the bindings is at addresses below a bound, where nothing changes. Each line of
the program leaves the machine as it should be for the state in which the tree is (`Layout.Fits`), and
leaves all other objects alone (`Layout.Keeps`).
-/

namespace Stencil.Tree

open Script

/-- The places of a machine: those of the namespace, of the context and of the output, and the bound of
the data. -/
structure Layout where
  html : Bool
  bound : Nat
  globals : Address
  context : Address
  buffer : Address

/-- The kind of the context. -/
def Layout.contextKind (L : Layout) : ContextKind :=
  if L.html then .html else .text

/-- A namespace that holds the names of the engine, and the values of names in a state. -/
structure Layout.Space (L : Layout) (s : State) (m : Machine) (es : Entries) : Prop where
  buffer : es.named? Render.bufferName = some (.ref L.buffer)
  escape : es.named? "_escape" = some (.method (.ref L.context) "escape")
  plain : es.named? "_str" = some (.native .plainText)
  names : ∀ name, name ∉ engineNames →
    Option.Rel (Denotes m L.bound) (es.named? name) (s.values name)

/-- A machine that is as it should be for a state. -/
structure Layout.Fits (L : Layout) (s : State) (m : Machine) : Prop where
  globals : m.globals = L.globals
  space : ∃ es, m.object? L.globals = some (.dict es) ∧ L.Space s m es
  context : ∃ i, m.object? L.context = some (.instance i) ∧
    i.cls = .kind (.context L.contextKind) ∧ i.members.find? "escaper" = none
  buffer : ∃ pieces : List String,
    m.object? L.buffer = some (.list (pieces.map Value.str).toArray) ∧ String.join pieces = s.output
  le_globals : L.bound ≤ L.globals.index
  le_context : L.bound ≤ L.context.index
  le_buffer : L.bound ≤ L.buffer.index
  showing : m.showing = []

/-- A machine that has kept all objects but the namespace and the output. -/
structure Layout.Keeps (L : Layout) (m m' : Machine) : Prop where
  size_le : m.heap.size ≤ m'.heap.size
  object? : ∀ a : Address, a.index < m.heap.size → a ≠ L.globals → a ≠ L.buffer →
    m'.object? a = m.object? a

namespace Layout

variable {L : Layout} {s : State} {m m' m'' : Machine}

/-! ## Kept objects -/

/-- A machine keeps its objects. -/
theorem Keeps.refl (m : Machine) : L.Keeps m m :=
  ⟨Nat.le_refl _, fun _ _ _ _ => rfl⟩

/-- Objects are kept in two steps. -/
theorem Keeps.trans (h : L.Keeps m m') (h' : L.Keeps m' m'') : L.Keeps m m'' :=
  ⟨Nat.le_trans h.size_le h'.size_le, fun a ha hglobals hbuffer =>
    (h'.object? a (Nat.lt_of_lt_of_le ha h.size_le) hglobals hbuffer).trans
      (h.object? a ha hglobals hbuffer)⟩

/-- Another line. -/
theorem Keeps.onLine (h : L.Keeps m m') (line : Nat) : L.Keeps m (m'.onLine line) :=
  ⟨h.size_le, h.object?⟩

/-- One more object. -/
theorem Keeps.push (h : L.Keeps m m') (o : Object) : L.Keeps m (m'.push o) := by
  refine ⟨Nat.le_trans h.size_le (by simp [Machine.push]), fun a ha hglobals hbuffer => ?_⟩
  rw [Machine.object?_push_of_lt _ _ _ (Nat.lt_of_lt_of_le ha h.size_le)]
  exact h.object? a ha hglobals hbuffer

/-- Another object in place of the namespace, of the output, or of one made later. -/
theorem Keeps.put (h : L.Keeps m m') {a : Address} (o : Object)
    (ha : a = L.globals ∨ a = L.buffer ∨ m.heap.size ≤ a.index) : L.Keeps m (m'.put a o) := by
  refine ⟨Nat.le_trans h.size_le (by simp [Machine.put]), fun b hb hglobals hbuffer => ?_⟩
  have hne : a ≠ b := by
    rintro rfl
    rcases ha with ha | ha | ha
    · exact hglobals ha
    · exact hbuffer ha
    · exact Nat.not_lt_of_le ha hb
  rw [Machine.object?_put_of_ne _ _ _ _ hne]
  exact h.object? b hb hglobals hbuffer

/-! ## Machines that fit a state -/

/-- Replacing an object above the bound leaves the data alone. -/
theorem data_put {a : Address} (ha : L.bound ≤ a.index) (o : Object) :
    ∀ b : Address, b.index < L.bound → (m.put a o).object? b = m.object? b := by
  intro b hb
  refine m.object?_put_of_ne a b o ?_
  rintro rfl
  exact Nat.not_lt_of_le ha hb

/-- A namespace on a machine with the same data. -/
theorem Space.frame {es : Entries} (h : L.Space s m es)
    (hdata : ∀ a : Address, a.index < L.bound → m'.object? a = m.object? a) : L.Space s m' es := by
  have hframe {v : Option Value} {d : Option Data} (h : Option.Rel (Denotes m L.bound) v d) :
      Option.Rel (Denotes m' L.bound) v d := by
    cases h with
    | none => exact .none
    | some hd => exact .some (hd.frame hdata)
  exact ⟨h.buffer, h.escape, h.plain, fun name hname => hframe (h.names name hname)⟩

/-- A machine with the same data and the same places fits the same state. -/
theorem Fits.congr (h : L.Fits s m) (hglobals : m'.globals = m.globals)
    (hshowing : m'.showing = m.showing)
    (hdata : ∀ a : Address, a.index < L.bound → m'.object? a = m.object? a)
    (hplaces : ∀ a ∈ [L.globals, L.context, L.buffer], m'.object? a = m.object? a) :
    L.Fits s m' := by
  obtain ⟨es, hes, hspace⟩ := h.space
  obtain ⟨i, hi, hcontext⟩ := h.context
  obtain ⟨pieces, hpieces, houtput⟩ := h.buffer
  exact ⟨hglobals.trans h.globals,
    ⟨es, (hplaces L.globals (by simp)).trans hes, hspace.frame hdata⟩,
    ⟨i, (hplaces L.context (by simp)).trans hi, hcontext⟩,
    ⟨pieces, (hplaces L.buffer (by simp)).trans hpieces, houtput⟩,
    h.le_globals, h.le_context, h.le_buffer, hshowing.trans h.showing⟩

/-- Another line. -/
theorem Fits.onLine (h : L.Fits s m) (line : Nat) : L.Fits s (m.onLine line) :=
  h.congr rfl rfl (fun _ _ => rfl) fun _ _ => rfl

/-- The places are among the objects. -/
theorem Fits.lt_size (h : L.Fits s m) {a : Address} (ha : a ∈ [L.globals, L.context, L.buffer]) :
    a.index < m.heap.size := by
  obtain ⟨es, hes, -⟩ := h.space
  obtain ⟨i, hi, -⟩ := h.context
  obtain ⟨pieces, hpieces, -⟩ := h.buffer
  simp only [List.mem_cons, List.not_mem_nil, or_false] at ha
  rcases ha with rfl | rfl | rfl
  · exact Machine.index_lt hes
  · exact Machine.index_lt hi
  · exact Machine.index_lt hpieces

/-- The data is among the objects. -/
theorem Fits.bound_le_size (h : L.Fits s m) : L.bound ≤ m.heap.size :=
  Nat.le_trans h.le_globals (Nat.le_of_lt (h.lt_size List.mem_cons_self))

/-- One more object. -/
theorem Fits.push (h : L.Fits s m) (o : Object) : L.Fits s (m.push o) :=
  h.congr rfl rfl
    (fun a ha => m.object?_push_of_lt a o (Nat.lt_of_lt_of_le ha h.bound_le_size))
    fun a ha => m.object?_push_of_lt a o (h.lt_size ha)

/-- Another object at an address that is neither one of the data nor one of the places. -/
theorem Fits.put (h : L.Fits s m) {a : Address} (hdata : L.bound ≤ a.index)
    (hplaces : a ∉ [L.globals, L.context, L.buffer]) (o : Object) : L.Fits s (m.put a o) := by
  refine h.congr rfl rfl (data_put hdata o) fun b hb => m.object?_put_of_ne a b o ?_
  rintro rfl
  exact hplaces hb

/-- The data is among the objects that are kept. -/
theorem Fits.data_of_keeps (h : L.Fits s m) (hkeeps : L.Keeps m m') :
    ∀ a : Address, a.index < L.bound → m'.object? a = m.object? a := by
  intro a ha
  refine hkeeps.object? a (Nat.lt_of_lt_of_le ha h.bound_le_size) ?_ ?_
  · rintro rfl
    exact Nat.not_lt_of_le h.le_globals ha
  · rintro rfl
    exact Nat.not_lt_of_le h.le_buffer ha

/-- Writing a text to the output. -/
theorem Fits.write (h : L.Fits s m) (t : String) : ∃ xs,
    m.object? L.buffer = some (.list xs) ∧
      L.Fits (s.write t) (m.put L.buffer (.list (xs.push (.str t)))) := by
  obtain ⟨es, hes, hspace⟩ := h.space
  obtain ⟨i, hi, hcontext⟩ := h.context
  obtain ⟨pieces, hpieces, houtput⟩ := h.buffer
  have hglobals : L.buffer ≠ L.globals := Machine.ne_of_object? hpieces hes nofun
  have hne : L.buffer ≠ L.context := Machine.ne_of_object? hpieces hi nofun
  have hspace' := hspace.frame (data_put h.le_buffer
    (.list ((pieces.map Value.str).toArray.push (.str t))))
  refine ⟨_, hpieces, h.globals, ⟨es, ?_, ?_⟩, ⟨i, ?_, hcontext⟩, ⟨pieces ++ [t], ?_, ?_⟩,
    h.le_globals, h.le_context, h.le_buffer, h.showing⟩
  · rw [Machine.object?_put_of_ne _ _ _ _ hglobals, hes]
  · exact ⟨hspace'.buffer, hspace'.escape, hspace'.plain, hspace'.names⟩
  · rw [Machine.object?_put_of_ne _ _ _ _ hne, hi]
  · rw [Machine.object?_put_self hpieces]
    simp
  · rw [State.write, ← houtput]
    simp [String.join_append]

/-- Giving a name a value. -/
theorem Fits.bind (h : L.Fits s m) {name : String} (hname : name ∉ engineNames) {v : Value} {d : Data}
    (hd : Denotes m L.bound v d) : ∃ es, m.object? L.globals = some (.dict es) ∧
      L.Fits (s.bind name d) (m.put L.globals (.dict (es.insert (.str name) v))) := by
  obtain ⟨es, hes, hspace⟩ := h.space
  obtain ⟨i, hi, hcontext⟩ := h.context
  obtain ⟨pieces, hpieces, houtput⟩ := h.buffer
  have hbuffer : L.globals ≠ L.buffer := Machine.ne_of_object? hes hpieces nofun
  have hne : L.globals ≠ L.context := Machine.ne_of_object? hes hi nofun
  have hdata := data_put (m := m) h.le_globals (.dict (es.insert (.str name) v))
  have hspace' := hspace.frame hdata
  have hengine {n : String} (hn : n ∈ engineNames) :
      (es.insert (.str name) v).named? n = es.named? n := by
    rw [Entries.named?_insert, if_neg]
    rintro rfl
    exact hname hn
  refine ⟨_, hes, h.globals, ⟨_, Machine.object?_put_self hes _, ?_⟩, ⟨i, ?_, hcontext⟩,
    ⟨pieces, ?_, houtput⟩, h.le_globals, h.le_context, h.le_buffer, h.showing⟩
  · refine ⟨(hengine (by simp [engineNames])).trans hspace.buffer,
      (hengine (by simp [engineNames])).trans hspace.escape,
      (hengine (by simp [engineNames])).trans hspace.plain, fun n hn => ?_⟩
    have hvalues : (s.bind name d).values n = if n = name then some d else s.values n := rfl
    rw [Entries.named?_insert, hvalues]
    by_cases heq : n = name
    · rw [if_pos heq, if_pos heq]
      exact .some (hd.frame hdata)
    · rw [if_neg heq, if_neg heq]
      exact hspace'.names n hn
  · rw [Machine.object?_put_of_ne _ _ _ _ hne, hi]
  · rw [Machine.object?_put_of_ne _ _ _ _ hbuffer, hpieces]

end Layout

/-- A name of a template is none of the engine and none that is built in. -/
theorem Name.notMem_engineNames (x : Name) : x.id ∉ engineNames ∧ Scope.builtin? x.id = none := by
  have h := x.isOwn
  simp only [isOwnName, Bool.and_eq_true, Bool.not_eq_true', Option.isNone_iff_eq_none] at h
  exact ⟨by simpa using h.2, h.1.2⟩

end Stencil.Tree
