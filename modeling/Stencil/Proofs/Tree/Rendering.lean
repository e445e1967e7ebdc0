import Stencil.Proofs.Script.Calm
import Stencil.Proofs.Tree.Execution
import Stencil.Proofs.Tree.Generation

/-!
# Templates that are block trees

A template that is a block tree is compiled whatever the settings, and rendering it with a mapping of JSON
values gives what the tree means over these values (`render_segmentsAll`).
-/

namespace Stencil.Tree

open Script

/-! ## Bindings -/

/-- A mapping of values to names. -/
def mappingOf (bindings : List (String × Data)) : List (Data × Data) :=
  bindings.map fun b => (.str b.1, b.2)

/-- The names of a mapping. -/
theorem named_mappingOf {m : Machine} {k : Nat} {es : Entries} {bindings : List (String × Data)}
    (h : DenoteEntries m k es (mappingOf bindings)) : es.Named (bindings.map (·.1)) := by
  induction bindings generalizing es with
  | nil =>
      cases h
      rfl
  | cons b bindings ih =>
      cases h with
      | cons hd hrest => exact List.cons_eq_cons.2 ⟨rfl, ih hrest⟩

/-- Writing the entries of a mapping one after the other gives names the values of the bindings. -/
theorem rel_writeAll {m : Machine} {k : Nat} {es : Entries} (acc : Entries)
    {bindings : List (String × Data)} (s : State) (h : DenoteEntries m k es (mappingOf bindings))
    (hacc : ∀ name, Option.Rel (Denotes m k) (acc.named? name) (s.values name)) (name : String) :
    Option.Rel (Denotes m k) ((es.writeAll acc).named? name)
      ((bindings.foldl (fun s b => s.bind b.1 b.2) s).values name) := by
  induction bindings generalizing es acc s with
  | nil =>
      cases h
      exact hacc name
  | cons b bindings ih =>
      cases h with
      | @cons _ _ v d es _ hd hrest =>
          refine ih (acc.insert (.str b.1) v) (s.bind b.1 b.2) hrest fun n => ?_
          have hvalues : (s.bind b.1 b.2).values n = if n = b.1 then some b.2 else s.values n := rfl
          rw [Entries.named?_insert, hvalues]
          split
          · exact .some hd
          · exact hacc n

/-- Nothing has been put out at the start. -/
theorem State.output_start (bindings : List (String × Data)) : (State.start bindings).output = "" := by
  have houtput (s : State) : (bindings.foldl (fun s b => s.bind b.1 b.2) s).output = s.output := by
    induction bindings generalizing s with
    | nil => rfl
    | cons b bindings ih => exact ih _
  exact houtput _

/-! ## The namespace -/

/-- A namespace with the names of the engine. -/
def engineSpace (es : Entries) (context buffer : Address) : Entries :=
  (((((es.insert (.str "__builtins__")
    (.foreign "module" "<module 'builtins' (built-in)>" "<module 'builtins' (built-in)>")).insert
    (.str Render.bufferName) (.ref buffer)).insert
    (.str "_escape") (.method (.ref context) "escape")).insert
    (.str "_str") (.native .plainText)).insert
    (.str "_context") (.ref context))

/-- The names of the engine in its namespace. -/
theorem named?_engineSpace (es : Entries) (context buffer : Address) :
    (engineSpace es context buffer).named? Render.bufferName = some (.ref buffer) ∧
    (engineSpace es context buffer).named? "_escape" = some (.method (.ref context) "escape") ∧
    (engineSpace es context buffer).named? "_str" = some (.native .plainText) ∧
    ∀ name ∉ engineNames, (engineSpace es context buffer).named? name = es.named? name := by
  refine ⟨?_, ?_, ?_, fun name hname => ?_⟩
  · simp [engineSpace, Entries.named?_insert, Render.bufferName]
  · simp [engineSpace, Entries.named?_insert]
  · simp [engineSpace, Entries.named?_insert]
  · simp only [engineNames, List.mem_cons, List.not_mem_nil, or_false, not_or] at hname
    obtain ⟨hbuiltins, hbuffer, hescape, hplain, hcontext⟩ := hname
    simp only [engineSpace, Entries.named?_insert, if_neg hbuiltins, if_neg hbuffer, if_neg hescape,
      if_neg hplain, if_neg hcontext]

section

variable {m : Machine} {c vars : Address} {html : Bool} {es : Entries} {names : List String}

/-- The namespace of a template holds the bindings of its context and the names of the engine. Making it
leaves an iterator behind, and the list for the output. -/
theorem run_namespaceOf {escaper : Option Value}
    (h : m.object? c = some (.instance (contextObject html vars escaper)))
    (hvars : m.object? vars = some (.dict es)) (hnames : es.Named names) : ∃ i,
      ∀ n, names.length + 2 ≤ n → (Render.namespaceOf (operations n) (.ref c)).run m =
        .ok (engineSpace (gathered es names []) c (m.push (.iterator i)).fresh)
          ((m.push (.iterator i)).push (.list #[])) := by
  obtain ⟨i, hbindings⟩ := run_bindings h hvars hnames
  have hcontext : (m.push (.iterator i)).object? c =
      some (.instance (contextObject html vars escaper)) :=
    (m.object?_push_of_lt c _ (Machine.index_lt h)).trans h
  refine ⟨i, fun n hn => ?_⟩
  obtain ⟨n, rfl⟩ := Nat.exists_eq_add_of_le' (Nat.le_trans (Nat.le_add_left 1 _) hn)
  rw [Render.namespaceOf, EStateM.run_bind, hbindings _ hn]
  dsimp only
  rw [EStateM.run_bind, run_member_context hcontext (by simp) n]
  dsimp only
  rw [EStateM.run_bind]
  rfl

/-- The namespace of a template is made whatever escaper its context has and whatever number of steps may
be taken, unless the steps are used up. -/
theorem calm_namespaceOf {escaper : Option Value}
    (h : m.object? c = some (.instance (contextObject html vars escaper)))
    (hvars : m.object? vars = some (.dict es)) (hnames : es.Named names) : ∃ i, ∀ n,
      Calm (Render.namespaceOf (operations n) (.ref c)) m fun space m' =>
        space = engineSpace (gathered es names []) c (m.push (.iterator i)).fresh ∧
          m' = (m.push (.iterator i)).push (.list #[]) := by
  obtain ⟨i, hbindings⟩ := calm_bindings h hvars hnames
  have hcontext : (m.push (.iterator i)).object? c =
      some (.instance (contextObject html vars escaper)) :=
    (m.object?_push_of_lt c _ (Machine.index_lt h)).trans h
  refine ⟨i, fun n => ?_⟩
  cases n with
  | zero => exact .of_exhausted rfl
  | succ n =>
      refine .bind ((hbindings (n + 1)).imp ?_)
      rintro es' m' ⟨rfl, rfl⟩
      refine .bind (.of_ok (run_member_context hcontext (by simp) n) ?_)
      exact .of_ok rfl ⟨rfl, rfl⟩

/-- The machine on which a template starts: the namespace is a new one, and no line has been worked on. -/
def startMachine (m : Machine) (space : Entries) : Machine :=
  { m.push (.dict space) with globals := m.fresh, line := 0, depth := 0, handling := [] }

/-- The layout of the machine on which a template starts. -/
def startLayout (html : Bool) (bound : Nat) (c : Address) (m : Machine) (i : Iterator) : Layout where
  html := html
  bound := bound
  globals := ((m.push (.iterator i)).push (.list #[])).fresh
  context := c
  buffer := (m.push (.iterator i)).fresh

/-- The machine on which a template starts fits the start of its tree. -/
theorem fits_start {bound : Nat} {bindings : List (String × Data)}
    (h : m.object? c = some (.instance (contextObject html vars))) (hnames : es.Named names)
    (hvalues : ∀ name, Option.Rel (Denotes m bound) (es.named? name)
      ((State.start bindings).values name))
    (hbound : bound ≤ c.index) (hshowing : m.showing = []) (i : Iterator) :
    (startLayout html bound c m i).Fits (.start bindings)
      (startMachine ((m.push (.iterator i)).push (.list #[]))
        (engineSpace (gathered es names []) c (m.push (.iterator i)).fresh)) := by
  let m₁ := m.push (.iterator i)
  let m₂ := m₁.push (.list #[])
  let space := engineSpace (gathered es names []) c m₁.fresh
  have hsize : c.index < m.heap.size := Machine.index_lt h
  have hsize₁ : m₁.heap.size = m.heap.size + 1 := Array.size_push _
  have hsize₂ : m₂.heap.size = m.heap.size + 2 := (Array.size_push _).trans (by rw [hsize₁])
  -- three objects are new, an iterator over the context, the buffer and the namespace; none is replaced
  have hold (a : Address) (ha : a.index < m.heap.size) :
      (startMachine m₂ space).object? a = m.object? a := by
    change (m₂.push (.dict space)).object? a = _
    rw [Machine.object?_push_of_lt _ _ _ (by omega), Machine.object?_push_of_lt _ _ _ (by omega),
      Machine.object?_push_of_lt _ _ _ ha]
  obtain ⟨hbuffer, hescape, hplain, hrest⟩ := named?_engineSpace (gathered es names []) c m₁.fresh
  refine ⟨rfl, ⟨space, m₂.object?_push_fresh _, hbuffer, hescape, hplain, fun name hname => ?_⟩,
    ⟨_, (hold c hsize).trans h, rfl, rfl⟩, ⟨[], ?_, (State.output_start bindings).symm⟩, ?_, hbound,
    ?_, hshowing⟩
  · rw [hrest name hname, named?_gathered hnames]
    have hrel := hvalues name
    generalize es.named? name = v, (State.start bindings).values name = d at hrel
    cases hrel with
    | none => exact .none
    | some hd => exact .some (hd.frame fun a ha => hold a (by omega))
  · change (m₂.push (.dict space)).object? m₁.fresh = _
    rw [Machine.object?_push_of_lt]
    · exact m₁.object?_push_fresh _
    · change m₁.heap.size < _
      omega
  · change bound ≤ m₂.heap.size
    omega
  · change bound ≤ m₁.heap.size
    omega

end

/-! ## The output -/

/-- Strings are put together without anything between them. -/
theorem intercalate_empty : (pieces : List String) →
    String.intercalate "" pieces = String.join pieces
  | [] => rfl
  | [p] => by rw [String.join_cons, String.intercalate_singleton]; exact String.append_empty.symm
  | p :: q :: rest => by
      rw [String.intercalate_cons_cons, intercalate_empty (q :: rest), String.append_empty]
      exact String.join_cons.symm

/-- Texts out of a list of strings. -/
theorem mapM_strings {f : Value × Nat → Run String} (hf : ∀ s i, f (.str s, i) = pure s)
    (pieces : List String) (k : Nat) : ((pieces.map Value.str).zipIdx k).mapM f = pure pieces := by
  induction pieces generalizing k with
  | nil => rfl
  | cons p pieces ih =>
      rw [List.map_cons, List.zipIdx_cons, List.mapM_cons, hf, ih]
      rfl

/-- The items of a list are drained from an iterator of their own. -/
theorem remaining_list {m : Machine} {b : Address} {pieces : List String}
    (h : m.object? b = some (.list (pieces.map Value.str).toArray)) :
    Remaining (m.push (.iterator (.listFrom b 0))) (b.index + 1) (.listFrom b 0) (pieces.map .str) :=
  .listFrom (Nat.lt_succ_self _) ((m.object?_push_of_lt _ _ (Machine.index_lt h)).trans h)
    (denoteAll_strings _ pieces)

/-- Going through the items of a list is started with an iterator over it. -/
theorem run_start_list {m : Machine} {b : Address} {xs : Array Value}
    (h : m.object? b = some (.list xs)) (ops : Ops) :
    (Iterate.start ops (.ref b)).run m = .ok (.ref m.fresh) (m.push (.iterator (.listFrom b 0))) := by
  rw [Iterate.start, EStateM.run_bind, Run.run_object?, h]
  rfl

section

variable {m : Machine} {es : Entries} {b : Address} {pieces : List String}

/-- The output is what joining the list of the pieces gives. -/
theorem run_output_eq (hspace : m.object? m.globals = some (.dict es))
    (hbuffer : es.named? Render.bufferName = some (.ref b)) (ops : Ops) :
    (Render.output ops).run m = (do
      match ← Str.join ops [] (.ref b) with
      | .str t => return t
      | _ => return "" : Run String).run m := by
  rw [Render.output, EStateM.run_bind, EStateM.run_get]
  dsimp only
  rw [EStateM.run_bind, Run.run_entries hspace]
  dsimp only
  generalize es.named? Render.bufferName = buffer at hbuffer
  subst hbuffer
  rfl

/-- The output is the pieces put together. -/
theorem run_output (hspace : m.object? m.globals = some (.dict es))
    (hbuffer : es.named? Render.bufferName = some (.ref b))
    (hpieces : m.object? b = some (.list (pieces.map Value.str).toArray)) :
    ∃ m', ∀ n ≥ pieces.length + 2,
      (Render.output (operations n)).run m = .ok (String.join pieces) m' := by
  obtain ⟨vs, i, hvs, hdrain⟩ := (remaining_list hpieces).run_drain (m.object?_push_fresh _)
    (Machine.index_lt hpieces)
  obtain rfl := hvs.eq_strings
  rw [List.length_map] at hdrain
  refine ⟨(m.push (.iterator (.listFrom b 0))).put m.fresh (.iterator i), fun n hn => ?_⟩
  have hjoin : (Str.join (operations n) [] (.ref b)).run m = .ok (.str (String.join pieces))
      ((m.push (.iterator (.listFrom b 0))).put m.fresh (.iterator i)) := by
    rw [Str.join, EStateM.run_bind, Run.run_catching_ok (run_start_list hpieces _)]
    dsimp only
    rw [EStateM.run_bind, hdrain n hn]
    dsimp only
    rw [EStateM.run_bind, mapM_strings (fun _ _ => rfl)]
    change EStateM.Result.ok (Value.str (String.intercalate "" pieces)) _ = _
    rw [intercalate_empty]
  rw [run_output_eq hspace hbuffer, EStateM.run_bind, hjoin]
  rfl

/-- The output is the pieces put together, whatever number of steps may be taken, unless the steps are
used up. -/
theorem calm_output (hspace : m.object? m.globals = some (.dict es))
    (hbuffer : es.named? Render.bufferName = some (.ref b))
    (hpieces : m.object? b = some (.list (pieces.map Value.str).toArray)) (n : Nat) :
    Calm (Render.output (operations n)) m fun t _ => t = String.join pieces := by
  obtain ⟨vs, i, hvs, hdrain⟩ := (remaining_list hpieces).calm_drain (m.object?_push_fresh _)
    (Machine.index_lt hpieces)
  obtain rfl := hvs.eq_strings
  have hjoin : Calm (Str.join (operations n) [] (.ref b)) m fun v _ => v = .str (String.join pieces) := by
    refine .bind (.of_ok (Run.run_catching_ok (run_start_list hpieces _)) ?_)
    refine .bind ((hdrain n).imp ?_)
    rintro vs m' ⟨rfl, rfl⟩
    rw [mapM_strings (fun _ _ => rfl)]
    refine .of_ok rfl ?_
    rw [String.ofList_nil, intercalate_empty]
  refine .of_run_eq (run_output_eq hspace hbuffer _) (.bind (hjoin.imp ?_))
  rintro v m' rfl
  exact .pure rfl

end

/-- The output of a machine that fits is that of its state. -/
theorem Layout.Fits.run_output {L : Layout} {s : State} {m : Machine} (h : L.Fits s m) :
    ∃ enough m', ∀ n ≥ enough, (Render.output (operations n)).run m = .ok s.output m' := by
  obtain ⟨es, hes, hspace⟩ := h.space
  obtain ⟨pieces, hpieces, houtput⟩ := h.buffer
  rw [← houtput]
  exact ⟨_, Tree.run_output (h.globals ▸ hes) hspace.buffer hpieces⟩

/-! ## Failures -/

/-- The error for an exception that was raised with a message on a line of the program. -/
theorem run_failure {m : Machine} {e : Address} {kind : ExceptionKind} {message : String} {line : Nat}
    {l : Int} {p : Program} (h : m.object? e = some (Run.exceptionObject kind message line))
    (hkind : kind.IsPlain) (hline : 0 < line) (hl : p.lineMap.find? line = some l) :
    ∃ entry, ∀ n ≥ 2, (Render.failure (operations n) p true e).run m =
      .ok (.failed p.name (some l) kind.name message, entry) m := by
  let shown := kind.name ++ "(" ++ Show.joined ", " [Text.quotedString message] ++ ")"
  have horigin : (Render.originOf e).run m = .ok (some line) m := by
    rw [Machine.object?] at h
    rw [Render.originOf, EStateM.run_bind, EStateM.run_get]
    simp [Render.originIn, h, Run.exceptionObject, hline]
  have hname : (Run.nameOf (.kind (.exception kind))).run m = .ok kind.name m := rfl
  refine ⟨⟨2, s!"Render of {p.name} failed at line {toString l}: {shown}"⟩, fun n hn => ?_⟩
  rw [Render.failure, EStateM.run_bind, horigin]
  dsimp only [Option.bind_some]
  rw [EStateM.run_bind, run_repr_exception h hkind hn]
  dsimp only
  rw [EStateM.run_bind, run_exceptionClass h]
  dsimp only
  rw [EStateM.run_bind, hname]
  dsimp only
  rw [EStateM.run_bind, run_str_exception h hkind hn]
  dsimp only
  rw [if_pos rfl, hl]
  rfl

/-! ## Runs -/

/-- What rendering a template gives for what its tree gives. -/
def reported (template : String) : Except Fault String → Except RenderError String
  | .ok t => .ok t
  | .error fault => .error (.failed template (some fault.line) fault.kind.name fault.message)

/-- Whether a line map gives the template lines of the program of a tree. -/
def Maps (lineMap : LineMap) (ns : List Node) : Prop :=
  ∀ i row, (rowsAll 0 ns)[i]? = some row → lineMap.find? ((1 + i : Nat) : Int) = some row.line

/-- What is left to do when the statements of a template have been run: to report an exception, or to put
the output together. -/
def concluded (ops : Ops) (p : Program) : Option Address → Run (Except RenderError String × LogEntry)
  | some e => do
    let (error, entry) ← Render.failure ops p true e
    return (.error error, entry)
  | none => do
    let text ← Render.output ops
    return (.ok text, ⟨3, s!"Rendered {p.name}: {text.length} characters"⟩)

/-- The exception with which the statements of a template end, if it is one that may be held back. -/
def endedBy (ops : Ops) (body : List Stmt) : Run (Option Address) :=
  Run.catching
    (do
      let _ ← ops.resume Env.top .proceed [.run body]
      return none)
    fun e => do
      if ← Run.isException e .exception then return some e else throw (.raised e)

/-- The statements of a template run in a namespace of their own, and what they end with is reported. -/
theorem run_runBody_eq {ops : Ops} {context : Value} {space : Entries} {m m₁ : Machine} (p : Program)
    (body : List Stmt) (h : (Render.namespaceOf ops context).run m = .ok space m₁) :
    (Render.runBody ops p true body context).run m =
      (endedBy ops body >>= concluded ops p).run (startMachine m₁ space) := by
  rw [Render.runBody, EStateM.run_bind, h]
  rfl

/-- The statements of a tree, run with a context, give what the tree gives. -/
theorem run_runBody {m : Machine} {c vars : Address} {html : Bool} {es : Entries}
    {names : List String} {bound : Nat} {bindings : List (String × Data)} {p : Program}
    {ns : List Node} (h : m.object? c = some (.instance (contextObject html vars)))
    (hvars : m.object? vars = some (.dict es)) (hnames : es.Named names)
    (hvalues : ∀ name, Option.Rel (Denotes m bound) (es.named? name)
      ((State.start bindings).values name))
    (hbound : bound ≤ c.index) (hshowing : m.showing = []) (hlines : Maps p.lineMap ns) :
    ∃ enough m' entry, ∀ n ≥ enough,
      (Render.runBody (operations n) p true (stmtsAll 1 ns) (.ref c)).run m =
        .ok (reported p.name (evaluate html ns bindings), entry) m' := by
  obtain ⟨i, hspace⟩ := run_namespaceOf h hvars hnames
  let space := engineSpace (gathered es names []) c (m.push (.iterator i)).fresh
  let m₀ := startMachine ((m.push (.iterator i)).push (.list #[])) space
  let L := startLayout html bound c m i
  have hfits : L.Fits (.start bindings) m₀ := fits_start h hnames hvalues hbound hshowing i
  have hruns : L.Runs (rowsAll 0 ns) 1 (stmtsAll 1 ns) m₀ (evalAll html ns (.start bindings)) :=
    runs_stmtsAll 0 ns 1 hfits
  have hbody (n : Nat) (hn : names.length + 2 ≤ n) :
      (Render.runBody (operations n) p true (stmtsAll 1 ns) (.ref c)).run m =
        (endedBy (operations n) (stmtsAll 1 ns) >>= concluded (operations n) p).run m₀ :=
    run_runBody_eq p _ (hspace n hn)
  rw [evaluate]
  -- the statements end with the output in the buffer, or with an exception that is held back
  cases heval : evalAll html ns (.start bindings) with
  | ok s =>
      rw [heval] at hruns
      obtain ⟨m₁, hdoes, hfits₁, -⟩ := hruns
      obtain ⟨enough, hresume⟩ := hdoes.run_resume
      obtain ⟨enough', m', houtput⟩ := hfits₁.run_output
      refine ⟨max (names.length + 2) (max enough enough'), m',
        ⟨3, s!"Rendered {p.name}: {s.output.length} characters"⟩, fun n hn => ?_⟩
      have hended : (endedBy (operations n) (stmtsAll 1 ns)).run m₀ = .ok none m₁ := by
        refine Run.run_catching_ok ?_
        rw [EStateM.run_bind, hresume n (by omega)]
        rfl
      rw [hbody n (by omega), EStateM.run_bind, hended]
      dsimp only
      rw [concluded, EStateM.run_bind, houtput n (by omega)]
      rfl
  | error fault =>
      rw [heval] at hruns
      obtain ⟨m', m₁, j, row, hdoes, rfl, hkind, hrow, hline⟩ := hruns
      obtain ⟨enough, hresume⟩ := hdoes.run_resume
      have hobject : (fault.raisedOn m₁ (1 + j)).object? m₁.fresh =
          some (Run.exceptionObject fault.kind fault.message (1 + j)) :=
        Machine.object?_push_fresh _ _
      obtain ⟨entry, hfailure⟩ := run_failure (p := p) hobject hkind (by omega) (hlines j row hrow)
      refine ⟨max (names.length + 2) enough, fault.raisedOn m₁ (1 + j), entry, fun n hn => ?_⟩
      have hended : (endedBy (operations n) (stmtsAll 1 ns)).run m₀ =
          .ok (some m₁.fresh) (fault.raisedOn m₁ (1 + j)) := by
        rw [endedBy, Run.catching, Run.run_tryCatch, EStateM.run_bind, hresume n (by omega)]
        dsimp only
        rw [EStateM.run_bind, run_isException hobject hkind]
        rfl
      rw [hbody n (by omega), EStateM.run_bind, hended]
      dsimp only
      rw [concluded, EStateM.run_bind, hfailure n (by omega), hline]
      rfl

/-! ## Templates -/

section

variable {m m' : Machine} {log : Array LogEntry} {ops : Ops}

/-- A computation of the machine within a rendering. -/
theorem run_ofRunBy {α : Type} {r : Run α} {a : α} (h : r.run m = .ok a m') :
    (Rendering.ofRunBy ops r).run.run (m, log) = (.ok a, (m', log)) := by
  have hget : (get : Rendering (Machine × Array LogEntry)).run.run (m, log) =
    (pure (.ok (m, log), (m, log)) : Id _) := rfl
  rw [Rendering.ofRunBy, ExceptT.run_bind, StateT.run_bind, hget, pure_bind]
  dsimp only
  rw [h]
  rfl

/-- A rendering goes on behind a computation of the machine. -/
theorem run_ofRunBy_bind {α β : Type} {r : Run α} {a : α} (h : r.run m = .ok a m')
    (f : α → Rendering β) :
    (Rendering.ofRunBy ops r >>= f).run.run (m, log) = (f a).run.run (m', log) := by
  rw [ExceptT.run_bind, StateT.run_bind, run_ofRunBy h]
  rfl

end

/-- A rendering that gives an output has gone on behind a computation of the machine that gave a value. -/
theorem exists_of_run_ofRunBy_bind {α β : Type} {m : Machine} {log : Array LogEntry} {ops : Ops}
    {r : Run α} {f : α → Rendering β} {b : β} {after : Machine × Array LogEntry}
    (h : (Rendering.ofRunBy ops r >>= f).run.run (m, log) = (.ok b, after)) :
    ∃ a m', r.run m = .ok a m' ∧ (f a).run.run (m', log) = (.ok b, after) := by
  cases hr : r.run m with
  | ok a m' => exact ⟨a, m', rfl, (run_ofRunBy_bind hr f).symm.trans h⟩
  | error stop m' =>
      have hget : (get : Rendering (Machine × Array LogEntry)).run.run (m, log) =
        (pure (.ok (m, log), (m, log)) : Id _) := rfl
      rw [ExceptT.run_bind, StateT.run_bind, Rendering.ofRunBy, ExceptT.run_bind, StateT.run_bind, hget,
        pure_bind] at h
      dsimp only at h
      rw [hr] at h
      cases stop with
      | exhausted => cases h
      | raised e =>
          dsimp only at h
          cases huncaught : (Render.uncaught ops e).run m' with
          | ok error m'' =>
              rw [huncaught] at h
              cases h
          | error stop' m'' =>
              rw [huncaught] at h
              cases h

/-- The segments of a tree are compiled to its statements, with a line map for them. -/
theorem compile_segmentsAll (settings : Settings) (name : String) (strict : Bool) {ns : List Node}
    (hdepth : depthAll ns ≤ maxBlocks) (log : Array LogEntry) : ∃ p log',
      (Program.ofInstructions settings name strict
        (Instruction.ofSegments (segmentsAll ns))).run.run log = (.ok p, log') ∧
      p.name = name ∧ p.body = some (stmtsAll 1 ns) ∧ Maps p.lineMap ns := by
  obtain ⟨b, hgenerate, hholds⟩ := generate_segmentsAll name strict ns
  have hcheck : check b.text = .ok (stmtsAll 1 ns) := by rw [hholds.text, check_programText hdepth]
  obtain ⟨log', hlog'⟩ := run_ofInstructions settings hgenerate hcheck log
  exact ⟨_, log', hlog', rfl, rfl, fun i row hrow => hholds.find? hrow⟩

/-- A mapping of JSON values is JSON data. -/
theorem areJsonEntries_mappingOf {bindings : List (String × Data)}
    (h : ∀ b ∈ bindings, b.2.isJson) : Data.areJsonEntries (mappingOf bindings) := by
  induction bindings with
  | nil => rfl
  | cons b bindings ih =>
      have hrest := ih fun b' hb' => h b' (List.mem_cons_of_mem _ hb')
      rw [mappingOf, List.map_cons, Data.areJsonEntries, h b List.mem_cons_self, Bool.true_and]
      exact hrest

/-- A machine with a new context for the entries of a mapping. -/
def contextMachine (html : Bool) (es : Entries) (m : Machine) : Machine :=
  (m.push (.dict (es.writeAll []))).push (.instance (contextObject html m.fresh))

/-- Where the new context is. -/
def contextAddress (es : Entries) (m : Machine) : Address :=
  (m.push (.dict (es.writeAll []))).fresh

section

variable {m : Machine} {a : Address} {es : Entries} {bindings : List (String × Data)} (html : Bool)

/-- A new context leaves the objects as they are. -/
theorem object?_contextMachine {b : Address} (hb : b.index < m.heap.size) :
    (contextMachine html es m).object? b = m.object? b := by
  have hsize : (m.push (.dict (es.writeAll []))).heap.size = m.heap.size + 1 := Array.size_push _
  rw [contextMachine, Machine.object?_push_of_lt _ _ _ (by omega), Machine.object?_push_of_lt _ _ _ hb]

/-- A new context has a dictionary of its own, with the values of the bindings. -/
theorem contextMachine_holds (hentries : DenoteEntries m m.heap.size es (mappingOf bindings)) :
    (contextMachine html es m).object? (contextAddress es m) =
      some (.instance (contextObject html m.fresh)) ∧
    (contextMachine html es m).object? m.fresh = some (.dict (es.writeAll [])) ∧
    (∃ names, (es.writeAll []).Named names) ∧
    ∀ name, Option.Rel (Denotes (contextMachine html es m) m.heap.size) ((es.writeAll []).named? name)
      ((State.start bindings).values name) := by
  have hempty : Entries.Named [] [] := rfl
  have hsize : (m.push (.dict (es.writeAll []))).heap.size = m.heap.size + 1 := Array.size_push _
  refine ⟨Machine.object?_push_fresh _ _, ?_, (named_mappingOf hentries).writeAll hempty, fun name => ?_⟩
  · rw [contextMachine, Machine.object?_push_of_lt _ _ _ (by rw [hsize]; exact Nat.lt_succ_self _)]
    exact m.object?_push_fresh _
  · exact rel_writeAll [] ⟨fun _ => none, ""⟩ (hentries.frame fun b hb => object?_contextMachine html hb)
      (fun _ => .none) name

/-- A mapping is no context. -/
theorem run_isContext_dict (hobject : m.object? a = some (.dict es)) :
    (Context.isContext (.ref a)).run m = .ok false m := by
  have hclass : (Run.classOf (.ref a)).run m = .ok (.kind .dict) m := by
    rw [Run.classOf, EStateM.run_bind, Run.run_object?, hobject]
    rfl
  rw [Context.isContext, Context.kind?, EStateM.run_bind, EStateM.run_bind, hclass]
  rfl

/-- A new context of a template has the entries of a mapping. -/
theorem run_newContext {names : List String} (hnames : es.Named names) (p : Program) (k : Nat) :
    (Template.newContext (operations (k + 1)) ⟨p, html, none⟩ es).run m =
      .ok (.ref (contextAddress es m)) (contextMachine html es m) :=
  run_new hnames html none k

/-- A template that is rendered with a mapping runs with a new context. -/
theorem run_renderBy_eq (hobject : m.object? a = some (.dict es)) {names : List String}
    (hnames : es.Named names) (p : Program) (k : Nat) (log : Array LogEntry) :
    ((⟨p, html, none⟩ : Template).renderBy (operations (k + 1)) (.ref a)).run.run (m, log) =
      (p.runBy (operations (k + 1)) true (.ref (contextAddress es m))).run.run
        (contextMachine html es m, log) := by
  rw [Template.renderBy]
  dsimp only
  rw [run_ofRunBy_bind (run_isContext_dict hobject), if_neg Bool.false_ne_true,
    run_ofRunBy_bind (Run.run_object? m a), hobject]
  dsimp only
  rw [run_ofRunBy_bind (run_newContext html hnames p k)]

end

/-- Rendering a template whose program has the statements of a tree gives what the tree gives. -/
theorem run_renderBy {m : Machine} {a : Address} {es : Entries} {bindings : List (String × Data)}
    {p : Program} {ns : List Node} (hbody : p.body = some (stmtsAll 1 ns))
    (hlines : Maps p.lineMap ns) (hobject : m.object? a = some (.dict es))
    (hentries : DenoteEntries m m.heap.size es (mappingOf bindings)) (hshowing : m.showing = [])
    (html : Bool) : ∃ enough m' entry, ∀ n ≥ enough, ∀ log,
      ((⟨p, html, none⟩ : Template).renderBy (operations n) (.ref a)).run.run (m, log) =
        (reported p.name (evaluate html ns bindings), (m', log.push entry)) := by
  obtain ⟨hcontext, hvars, ⟨names, hnames⟩, hvalues⟩ := contextMachine_holds html hentries
  have hbound : m.heap.size ≤ (contextAddress es m).index :=
    Nat.le_trans (Nat.le_succ _) (Nat.le_of_eq (Array.size_push _).symm)
  obtain ⟨enough, m', entry, hrun⟩ := run_runBody hcontext hvars hnames hvalues hbound hshowing hlines
  refine ⟨max enough 1, m', entry, fun n hn log => ?_⟩
  obtain ⟨k, rfl⟩ := Nat.exists_eq_add_of_le' (show 1 ≤ n by omega)
  rw [run_renderBy_eq html hobject (named_mappingOf hentries), Program.runBy, hbody]
  dsimp only
  rw [run_ofRunBy_bind (hrun _ (by omega))]
  dsimp only
  rw [Rendering.say]
  cases reported p.name (evaluate html ns bindings) <;> rfl

/-- A template that is a block tree, nested at most twenty deep, is compiled, and rendered with a mapping
of JSON values gives what the tree gives: its output, or an error with the template line, the kind and the
message of its fault. -/
theorem render_segmentsAll (settings : Settings) (name : String) (strict html : Bool) {ns : List Node}
    (hdepth : depthAll ns ≤ 20) {bindings : List (String × Data)}
    (hjson : ∀ b ∈ bindings, b.2.isJson) {m : Machine} (hshowing : m.showing = [])
    (log : Array LogEntry) :
    ∃ p log' v m₁ enough m₂ log₂,
      (Program.ofInstructions settings name strict
        (Instruction.ofSegments (segmentsAll ns))).run.run log = (.ok p, log') ∧
      (Value.ofData (.dict (mappingOf bindings))).run m = .ok v m₁ ∧
      ∀ n ≥ enough, ((⟨p, html, none⟩ : Template).renderBy (operations n) v).run.run (m₁, log') =
        (reported name (evaluate html ns bindings), (m₂, log₂)) := by
  obtain ⟨p, log', hcompile, rfl, hbody, hlines⟩ := compile_segmentsAll settings name strict hdepth log
  obtain ⟨v, m₁, hdata, ⟨os, rfl⟩, hdenotes⟩ := run_ofData (.dict (mappingOf bindings))
    (by rw [Data.isJson]; exact areJsonEntries_mappingOf hjson) m
  cases hdenotes with
  | @dict _ a es _ hlt hobject hentries =>
      obtain ⟨enough, m₂, entry, hrender⟩ := run_renderBy hbody hlines hobject
        (hentries.mono (Nat.le_of_lt hlt)) hshowing html
      exact ⟨p, log', _, _, enough, m₂, _, hcompile, hdata, fun n hn => hrender n hn log'⟩

/-- A loop over the names of a list, each of which is put out before a comma. -/
def listTree : List Node :=
  let item : Name := ⟨"item", by decide +kernel⟩
  [.loop ⟨1, true⟩ item ⟨"items", by decide +kernel⟩ [.output true item 2, .text ",".toList 2]
    ⟨"end".toList, 3, by decide +kernel⟩]

/-- The loop puts the items of a list out. -/
theorem render_listTree : ∃ p log' v m₁ enough m₂ log₂,
    (Program.ofInstructions Settings.default "page" true
      (Instruction.ofSegments (segmentsAll listTree))).run.run #[] = (.ok p, log') ∧
    (Value.ofData (.dict (mappingOf [("items", .list [.str "<", .int 2])]))).run Machine.start =
      .ok v m₁ ∧
    ∀ n ≥ enough, ((⟨p, true, none⟩ : Template).renderBy (operations n) v).run.run (m₁, log') =
      (.ok "&lt;,2,", (m₂, log₂)) := by
  have hdepth : depthAll listTree ≤ 20 := by decide
  have hjson : ∀ b ∈ [("items", Data.list [.str "<", .int 2])], b.2.isJson := by decide
  have hevaluate : evaluate true listTree [("items", .list [.str "<", .int 2])] = .ok "&lt;,2," := by
    decide +kernel
  have hrender := render_segmentsAll Settings.default "page" true true hdepth hjson
    (m := Machine.start) rfl #[]
  rw [hevaluate] at hrender
  exact hrender

end Stencil.Tree
