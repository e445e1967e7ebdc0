import Mathlib
import Stencil.Proofs.Reach.Context

/-!
# Renderings with a context

Templates that do not mention names that lead to their context leave it alone, whatever they end with: a
further rendering cannot tell whether others went before it, nor the context from a copy of what it held at
first (`render_leaves_context`). Block trees are such templates (`Tree.within_stmtsAll`).
-/

namespace Stencil

open Script Stencil.Tree
open Std.Do
open scoped Pairs

set_option mvcgen.warning false

/-! ## Ends of runs -/

section

variable {L : Limits} {W : Likeness L} {ops : Ops} (ho : ops.Within W) {e : Address} {v : Value}

@[spec] theorem Script.isFunction_spec (hv : v.Within L) : ⦃W.inside⦄ isFunction v ⦃W.stays⦄ := by
  mvcgen [isFunction] with grind

@[spec] theorem Render.originOf_spec (he : L.address e) : ⦃W.inside⦄ Render.originOf e ⦃W.stays⦄ := by
  refine W.stays_of_run fun m n hw => ⟨?_, hw⟩
  have hobject : m.heap[e.index]? = n.heap[e.index]? := (W.object hw he).1
  rw [Render.originIn, Render.originIn, hobject, (W.line hw).1]

/-- The list of the output is read from the namespace of a run. -/
theorem Render.run_output_global (ops : Ops) (m : Machine) : (Render.output ops).run m =
    ((m.global? Render.bufferName).elim (Run.fail ⟨.keyError, [.str Render.bufferName]⟩) fun buffer => do
      match ← Str.join ops [] buffer with
      | .str s => return s
      | _ => return "" : Run String).run m := by
  simp only [Render.output, EStateM.run_bind, EStateM.run_get, Run.run_entries_eq, Machine.global?]
  cases (m.entries m.globals).named? Render.bufferName <;> rfl

include ho

@[spec] theorem Script.snapshot_spec {n : Nat} (hv : v.Within L) : ⦃W.inside⦄ snapshot ops n v ⦃W.stays⦄ := by
  induction n generalizing v with
  | zero => mvcgen [snapshot]
  | succ n ih => mvcgen [snapshot, ih] with grind

@[spec] theorem Render.exitCode_spec (he : L.address e) : ⦃W.inside⦄ Render.exitCode ops e ⦃W.stays⦄ := by
  mvcgen [Render.exitCode] with grind

@[spec] theorem Render.uncaught_spec (he : L.address e) : ⦃W.inside⦄ Render.uncaught ops e ⦃W.stays⦄ := by
  have hstr : ⦃W.inside⦄ ops.str (.ref e) ⦃W.stays⦄ := ho.str he
  have htext : ⦃W.inside⦄ Run.catching (ops.str (.ref e)) (fun _ => return "") ⦃W.stays⦄ :=
    W.stays_of_gives (P := fun _ => True)
      (Run.gives_catching (W.gives_of_stays hstr) fun _ _ => W.gives_of_run fun _ _ hw => ⟨rfl, trivial, hw⟩)
  mvcgen [Render.uncaught, htext] with grind

@[spec] theorem Render.failure_spec {p : Program} {here : Bool} (he : L.address e) :
    ⦃W.inside⦄ Render.failure ops p here e ⦃W.stays⦄ := by
  mvcgen [Render.failure] with grind

@[spec] theorem Render.output_spec (hname : L.name Render.bufferName) :
    ⦃W.inside⦄ Render.output ops ⦃W.stays⦄ := by
  have hjoin (buffer : Value) (hbuffer : buffer.Within L) : ⦃W.inside⦄ (do
      match ← Str.join ops [] buffer with
      | .str s => return s
      | _ => return "" : Run String) ⦃W.stays⦄ := by
    mvcgen with grind
  refine W.stays_of_run fun m n hw => ?_
  obtain ⟨heq, hv⟩ := W.global hw hname
  rw [run_output_global, run_output_global, ← heq]
  cases hm : m.global? Render.bufferName with
  | none =>
    have hfail : ⦃W.inside⦄ (Run.fail ⟨.keyError, [.str Render.bufferName]⟩ : Run String) ⦃W.fails⦄ :=
      Run.fail_spec ⟨trivial, trivial⟩
    exact Pairs.triple_iff.1 (W.stays_of_fails hfail) m n hw
  | some buffer =>
    rw [hm] at hv
    exact Pairs.triple_iff.1 (hjoin buffer hv) m n hw

/-- The statements of a template end alike on machines that are alike. -/
theorem Render.endedBy_spec {body : List Stmt} (hbody : ∀ s ∈ body, s.Within L) :
    ⦃W.inside⦄ endedBy ops body ⦃W.gives fun e => ∀ a ∈ e, L.address a⦄ := by
  have henv := Env.top_within L
  have hresume : ⦃W.inside⦄ (do
      let _ ← ops.resume Env.top .proceed [.run body]
      return none : Run (Option Address)) ⦃W.gives fun e => ∀ a ∈ e, L.address a⦄ := by
    mvcgen with grind
  refine Run.gives_catching hresume fun e he => ?_
  mvcgen with grind

@[spec] theorem Render.concluded_spec {p : Program} {e : Option Address} (hname : L.name Render.bufferName)
    (he : ∀ a ∈ e, L.address a) : ⦃W.inside⦄ concluded ops p e ⦃W.stays⦄ := by
  cases e <;> (unfold concluded; mvcgen with grind)

end
/-! ## Steps used up -/

section

variable {m : Machine}

/-- Going through an iterator with no more steps than it has items uses the steps up. -/
theorem Script.Remaining.run_foldItems_exhausted {k : Nat} {i : Iterator} {ds : List Data} {a : Address}
    (h : Remaining m k i ds) (hobject : m.object? a = some (.iterator i)) (hk : k ≤ a.index) (n : Nat)
    {fuel : Nat} (acc : Array Value) (hfuel : fuel ≤ ds.length) : ∃ i',
      (Ops.foldItems.go (operations (n + 1)) (.ref a) (fun acc v => return acc.push v) fuel acc).run m =
        .error .exhausted (m.put a (.iterator i')) := by
  have hadvance : (operations (n + 1)).advance = Iterate.advance (operations n) := rfl
  induction ds generalizing m i fuel acc with
  | nil =>
      obtain rfl := Nat.le_zero.1 hfuel
      exact ⟨i, by rw [Machine.put_self hobject]; rfl⟩
  | cons d ds ih =>
      cases fuel with
      | zero => exact ⟨i, by rw [Machine.put_self hobject]; rfl⟩
      | succ fuel =>
        obtain ⟨v, i₁, hitem, hd, hrest⟩ := h.run_advance hobject
        have hframe (b : Address) (hb : b.index < k) :
            (m.put a (.iterator i₁)).object? b = m.object? b := by
          refine Machine.object?_put_of_ne _ _ _ _ ?_
          rintro rfl
          exact Nat.not_lt_of_le hk hb
        obtain ⟨i', hgo⟩ := ih (hrest.frame hframe) (Machine.object?_put_self hobject _) (acc.push v)
          (Nat.le_of_succ_le_succ hfuel)
        refine ⟨i', ?_⟩
        rw [Ops.foldItems.go, EStateM.run_bind, hadvance, hitem]
        dsimp only
        rw [EStateM.run_bind, EStateM.run_pure]
        dsimp only
        rw [hgo, Machine.put_put]

/-- The bindings of a context are not gathered with no more steps than there are names. -/
theorem run_bindings_exhausted {c vars : Address} {html : Bool} {escaper : Option Value} {es : Entries}
    {names : List String} (h : m.object? c = some (.instance (contextObject html vars escaper)))
    (hvars : m.object? vars = some (.dict es)) (hnames : es.Named names) {n : Nat}
    (hn : n < names.length + 2) : ∃ m',
    (Context.bindings (operations n) (.ref c)).run m = .error .exhausted m' ∧
      ∀ a, a.index < m.heap.size → m'.object? a = m.object? a := by
  cases n with
  | zero => exact ⟨m, rfl, fun _ _ => rfl⟩
  | succ n =>
    have hlen : n ≤ (names.map Data.str).length := by
      rw [List.length_map]
      omega
    obtain ⟨i, hgo⟩ := (remaining_keys hvars hnames).run_foldItems_exhausted (m.object?_push_fresh _)
      (Machine.index_lt hvars) n #[] hlen
    rw [Machine.put_push_fresh] at hgo
    have hdrain : ((operations (n + 1)).drain (.ref m.fresh)).run
        (m.push (.iterator (.entries .keys vars 0 es.length))) =
          .error .exhausted (m.push (.iterator i)) := hgo
    refine ⟨m.push (.iterator i), ?_, fun a ha => m.object?_push_of_lt a _ ha⟩
    rw [run_bindings_eq h, EStateM.run_bind, run_items_keys hvars, EStateM.run_bind, hdrain]

/-- Statements are not started when gathering the bindings uses the steps up. -/
theorem run_runBody_exhausted {ops : Ops} {c : Value} {m m' : Machine} (program : Program) (body : List Stmt)
    (h : (Context.bindings ops c).run m = .error .exhausted m') :
    (Render.runBody ops program true body c).run m = .error .exhausted m' := by
  rw [Render.runBody, EStateM.run_bind, Render.namespaceOf, EStateM.run_bind, h]

/-- The output is not put together with no more steps than there are pieces. -/
theorem run_output_exhausted {es : Entries} {b : Address} {pieces : List String}
    (hspace : m.object? m.globals = some (.dict es)) (hbuffer : es.named? Render.bufferName = some (.ref b))
    (hpieces : m.object? b = some (.list (pieces.map Value.str).toArray)) {n : Nat}
    (hn : n < pieces.length + 2) :
    ∃ m', (Render.output (operations n)).run m = .error .exhausted m' := by
  obtain ⟨m', hdrain⟩ : ∃ m', ((operations n).drain (.ref m.fresh)).run
      (m.push (.iterator (.listFrom b 0))) = .error .exhausted m' := by
    cases n with
    | zero => exact ⟨_, rfl⟩
    | succ n =>
      have hlen : n ≤ (pieces.map Data.str).length := by
        rw [List.length_map]
        omega
      obtain ⟨i, hgo⟩ := (remaining_list hpieces).run_foldItems_exhausted (m.object?_push_fresh _)
        (Machine.index_lt hpieces) n #[] hlen
      exact ⟨_, hgo⟩
  have hjoin : (Str.join (operations n) [] (.ref b)).run m = .error .exhausted m' := by
    rw [Str.join, EStateM.run_bind, Run.run_catching_ok (run_start_list hpieces _)]
    dsimp only
    rw [EStateM.run_bind, hdrain]
  rw [run_output_eq hspace hbuffer, EStateM.run_bind, hjoin]
  exact ⟨_, rfl⟩

end

/-! ## Starts of runs -/

theorem Script.Value.IsPlain.within {v : Value} (h : v.IsPlain) (L : Limits) : v.Within L := by
  cases v <;> trivial

section

variable {d : ContextContent} {p q : ContextPlace} {m n : Machine}

/-- A context stays where the objects that are there stay as they are. -/
theorem Script.Machine.HasContext.of_object? (h : m.HasContext d p)
    (hold : ∀ a, a.index < m.heap.size → n.object? a = m.object? a) : n.HasContext d p :=
  ⟨(hold _ (Machine.index_lt h.context)).trans h.context, (hold _ (Machine.index_lt h.vars)).trans h.vars⟩

/-- A context stays where it is when objects are made. -/
theorem Script.Machine.HasContext.push (h : m.HasContext d p) (o : Object) : (m.push o).HasContext d p :=
  h.of_object? fun a ha => m.object?_push_of_lt a o ha

/-- The bindings of a context are values within limits. -/
theorem ContextContent.ifWithin_named? (d : ContextContent) (L : Limits) (id : String) :
    Value.IfWithin L (d.entries.named? id) := by
  refine Value.ifWithin_iff.2 fun v hv => ?_
  obtain ⟨e, he, rfl⟩ := Option.map_eq_some_iff.1 hv
  exact (d.plain e (List.mem_of_find?_eq_some he)).within L

/-- Namespaces for contexts of one content agree on the names within limits. -/
theorem agreement_engineSpace (d : ContextContent) (p q : ContextPlace) (k : Nat) :
    Agreement k p q (engineSpace (gathered d.entries d.names []) p.context ⟨k⟩)
      (engineSpace (gathered d.entries d.names []) q.context ⟨k⟩) := by
  obtain ⟨-, hescape, -, hrest⟩ := named?_engineSpace (gathered d.entries d.names []) p.context ⟨k⟩
  obtain ⟨-, hescape', -, hrest'⟩ := named?_engineSpace (gathered d.entries d.names []) q.context ⟨k⟩
  refine ⟨fun id hid => ?_, hescape, hescape'⟩
  by_cases hengine : id ∈ engineNames
  · have hbuffer : (templateLimits k).address ⟨k⟩ := ⟨le_rfl, (Nat.lt_succ_self k).ne⟩
    simp only [leadingNames, engineNames, List.mem_cons, List.not_mem_nil, or_false, not_or] at hid hengine
    obtain ⟨hcontext, hescape, -⟩ := hid
    simp only [engineSpace, Entries.named?_insert, if_neg hcontext, if_neg hescape]
    refine ⟨trivial, ?_⟩
    split_ifs with hplain hbuf hbuiltins
    · exact fun h => by simp at h
    · exact hbuffer
    · trivial
    · simp_all
  · rw [hrest id hengine, hrest' id hengine, named?_gathered d.named]
    exact ⟨rfl, d.ifWithin_named? _ id⟩

/-- Of the objects that a template may reach, only the list of the output is there at its start. -/
theorem object?_startMachine (m : Machine) (i : Iterator) (space : Entries) {a : Address}
    (ha : (templateLimits (m.heap.size + 1)).address a) :
    (startMachine ((m.push (.iterator i)).push (.list #[])) space).object? a =
      if a.index = m.heap.size + 1 then some (.list #[]) else none := by
  obtain ⟨hle, hne⟩ := ha
  let m₁ := m.push (.iterator i)
  let m₂ := m₁.push (.list #[])
  have hsize₁ : m₁.heap.size = m.heap.size + 1 := Array.size_push _
  have hsize₂ : m₂.heap.size = m.heap.size + 2 := (Array.size_push _).trans (by rw [hsize₁])
  change (m₂.push (.dict space)).object? a = _
  split
  · next heq =>
    obtain rfl : a = m₁.fresh := by
      cases a
      exact congrArg Address.mk (heq.trans hsize₁.symm)
    rw [Machine.object?_push_of_lt _ _ _ (by omega)]
    exact m₁.object?_push_fresh _
  · exact Array.getElem?_eq_none (by rw [Machine.push, Array.size_push]; omega)

/-- Templates start on machines that agree on all that they may reach, with contexts of one content. -/
theorem beside_start (hm : m.HasContext d p) (hn : n.HasContext d q) (hsize : m.heap.size = n.heap.size)
    (hshowing : m.showing = n.showing) (i j : Iterator) :
    Beside (m.heap.size + 1) d p q
      (startMachine ((m.push (.iterator i)).push (.list #[]))
        (engineSpace (gathered d.entries d.names []) p.context (m.push (.iterator i)).fresh))
      (startMachine ((n.push (.iterator j)).push (.list #[]))
        (engineSpace (gathered d.entries d.names []) q.context (n.push (.iterator j)).fresh)) := by
  have hpush (m : Machine) (o : Object) : (m.push o).heap.size = m.heap.size + 1 := Array.size_push _
  have hbuffer : (m.push (.iterator i)).fresh = ⟨m.heap.size + 1⟩ := congrArg Address.mk (hpush _ _)
  have hbuffer' : (n.push (.iterator j)).fresh = ⟨m.heap.size + 1⟩ :=
    congrArg Address.mk ((hpush _ _).trans (by rw [hsize]))
  have hfresh : ((m.push (.iterator i)).push (.list #[])).fresh = ⟨m.heap.size + 2⟩ :=
    congrArg Address.mk (by rw [hpush, hpush])
  have hfresh' : ((n.push (.iterator j)).push (.list #[])).fresh = ⟨m.heap.size + 2⟩ :=
    congrArg Address.mk (by rw [hpush, hpush, hsize])
  have hstart (m : Machine) (i : Iterator) (space : Entries) :
      (startMachine ((m.push (.iterator i)).push (.list #[])) space).heap.size = m.heap.size + 3 := by
    change (((m.push (.iterator i)).push (.list #[])).push (.dict space)).heap.size = _
    rw [hpush, hpush, hpush]
  have hcontext := Machine.index_lt hm.context
  have hvars := Machine.index_lt hm.vars
  have hcontext' := Machine.index_lt hn.context
  have hvars' := Machine.index_lt hn.vars
  rw [hbuffer, hbuffer']
  exact {
    size := by rw [hstart, hstart, hsize]
    room := by rw [hstart]
    line := rfl
    depth := rfl
    showing := hshowing
    handling := ⟨rfl, nofun⟩
    globals := ⟨hfresh, hfresh'⟩
    space := by
      refine ⟨_, _, ?_, ?_, agreement_engineSpace d p q _⟩
      · rw [← hfresh]
        exact Machine.object?_push_fresh _ _
      · rw [← hfresh']
        exact Machine.object?_push_fresh _ _
    object := fun a ha => by
      rw [object?_startMachine m i _ ha, object?_startMachine n j _ (hsize ▸ ha), hsize]
      refine ⟨rfl, ?_⟩
      split <;> trivial
    context := ⟨⟨(((hm.push _).push _).push _).context, (((hm.push _).push _).push _).vars⟩,
      ⟨(((hn.push _).push _).push _).context, (((hn.push _).push _).push _).vars⟩⟩
    below := ⟨by omega, by omega, by omega, by omega⟩ }

/-! ## Runs -/

variable {t : Template} {body : List Stmt}

/-- Two computations of the machine end alike, on machines that have contexts of one content. -/
def EndTogether (d : ContextContent) (p q : ContextPlace) {α : Type} :
    EStateM.Result Stop Machine α → EStateM.Result Stop Machine α → Prop
  | .ok a m, .ok b n => a = b ∧ m.HasContext d p ∧ n.HasContext d q
  | .error .exhausted m, .error .exhausted n => m.HasContext d p ∧ n.HasContext d q
  | .error (.raised e) m, .error (.raised f) n => e = f ∧ ∃ k, (templateLimits k).address e ∧ Beside k d p q m n
  | _, _ => False

theorem EndTogether.of_ends {k : Nat} {α : Type} {r s : EStateM.Result Stop Machine α}
    (h : Pairs.Ends (besideLikeness k d p q).stays r s) : EndTogether d p q r s := by
  cases r with
  | ok a m =>
    cases s with
    | ok b n => exact ⟨h.1, Beside.context h.2⟩
    | error => exact h.elim
  | error stop m =>
    cases s with
    | ok => exact h.elim
    | error stop' n =>
      obtain ⟨rfl, hstop, hw⟩ := h
      cases stop with
      | exhausted => exact Beside.context hw
      | raised e => exact ⟨rfl, k, hstop, hw⟩

/-- The statements of a template run to ends that agree, with contexts of one content, or use up the steps
before they start. -/
theorem ends_runBody (hm : m.HasContext d p) (hn : n.HasContext d q) (hsize : m.heap.size = n.heap.size)
    (hshowing : m.showing = n.showing) (program : Program)
    (hbody : ∀ k, ∀ s ∈ body, s.Within (templateLimits k)) (steps : Nat) :
    EndTogether d p q ((Render.runBody (operations steps) program true body (.ref p.context)).run m)
      ((Render.runBody (operations steps) program true body (.ref q.context)).run n) := by
  by_cases hsteps : d.names.length + 2 ≤ steps
  · obtain ⟨i, hspace⟩ := run_namespaceOf hm.context hm.vars d.named
    obtain ⟨j, hspace'⟩ := run_namespaceOf hn.context hn.vars d.named
    have hstart := beside_start hm hn hsize hshowing i j
    have hops : (operations steps).Within (besideLikeness (m.heap.size + 1) d p q) := beside_operations steps
    have hname : (templateLimits (m.heap.size + 1)).name Render.bufferName := by
      simp [templateLimits, leadingNames, Render.bufferName]
    have hrun : ⦃(besideLikeness (m.heap.size + 1) d p q).inside⦄
        (endedBy (operations steps) body >>= concluded (operations steps) program)
        ⦃(besideLikeness (m.heap.size + 1) d p q).stays⦄ :=
      Likeness.stays_of_gives (Likeness.gives_bind (Render.endedBy_spec hops (hbody _)) fun e he =>
        Likeness.gives_of_stays (Render.concluded_spec hops hname he))
    refine .of_ends (k := m.heap.size + 1) ?_
    rw [run_runBody_eq program body (hspace steps hsteps), run_runBody_eq program body (hspace' steps hsteps)]
    exact Pairs.triple_iff.1 hrun _ _ hstart
  · obtain ⟨m', hspace, hm'⟩ := run_bindings_exhausted hm.context hm.vars d.named (Nat.lt_of_not_le hsteps)
    obtain ⟨n', hspace', hn'⟩ := run_bindings_exhausted hn.context hn.vars d.named (Nat.lt_of_not_le hsteps)
    rw [run_runBody_exhausted program body hspace, run_runBody_exhausted program body hspace']
    exact ⟨hm.of_object? hm', hn.of_object? hn'⟩

/-- A computation of the machine within a rendering gives its value, or an error for what stops it. -/
theorem run_ofRunBy_eq {α : Type} (ops : Ops) (x : Run α) (m : Machine) (log : Array LogEntry) :
    (Rendering.ofRunBy ops x).run.run (m, log) = match x.run m with
      | .ok a m' => (.ok a, (m', log))
      | .error .exhausted m' => (.error .exhausted, (m', log))
      | .error (.raised e) m' => match (Render.uncaught ops e).run m' with
        | .ok error m'' => (.error error, (m'', log))
        | .error _ m'' => (.error .exhausted, (m'', log)) := by
  have hget : (get : Rendering (Machine × Array LogEntry)).run.run (m, log) =
    (pure (.ok (m, log), (m, log)) : Id _) := rfl
  rw [Rendering.ofRunBy, ExceptT.run_bind, StateT.run_bind, hget, pure_bind]
  dsimp only
  cases x.run m with
  | ok => rfl
  | error stop m' =>
    cases stop with
    | exhausted => rfl
    | raised e =>
      dsimp only
      cases (Render.uncaught ops e).run m' <;> rfl

/-- A computation of the machine that ends alike with two contexts is the same rendering with both. -/
theorem ofRunBy_beside {α : Type} {x y : Run α} (h : EndTogether d p q (x.run m) (y.run n)) (steps : Nat)
    (log log' : Array LogEntry) : ∃ r m' n',
    (Rendering.ofRunBy (operations steps) x).run.run (m, log) = (r, (m', log)) ∧
      (Rendering.ofRunBy (operations steps) y).run.run (n, log') = (r, (n', log')) ∧
      m'.HasContext d p ∧ n'.HasContext d q := by
  rw [run_ofRunBy_eq, run_ofRunBy_eq]
  cases hx : x.run m with
  | ok a m' =>
    cases hy : y.run n with
    | ok b n' =>
      rw [hx, hy] at h
      obtain ⟨rfl, hm, hn⟩ := h
      exact ⟨_, _, _, rfl, rfl, hm, hn⟩
    | error stop n' =>
      rw [hx, hy] at h
      exact h.elim
  | error stop m' =>
    cases hy : y.run n with
    | ok b n' =>
      rw [hx, hy] at h
      cases stop <;> exact h.elim
    | error stop' n' =>
      rw [hx, hy] at h
      cases stop <;> cases stop' <;> try exact h.elim
      case exhausted.exhausted =>
        exact ⟨_, _, _, rfl, rfl, h.1, h.2⟩
      case raised.raised e f =>
        obtain ⟨rfl, k, he, hw⟩ := h
        have huncaught := Pairs.triple_iff.1 (Render.uncaught_spec (beside_operations steps) he) m' n' hw
        dsimp only
        cases hr : (Render.uncaught (operations steps) e).run m' <;>
          cases hs : (Render.uncaught (operations steps) e).run n' <;> rw [hr, hs] at huncaught
        case ok.ok =>
          obtain ⟨rfl, hw⟩ := huncaught
          exact ⟨_, _, _, rfl, rfl, Beside.context hw⟩
        case error.error => exact ⟨_, _, _, rfl, rfl, Beside.context huncaught.2.2⟩
        all_goals exact huncaught.elim

/-- What a program gives and leaves behind when its statements have been run. -/
def afterBody (m : Machine) (log : Array LogEntry) :
    Except RenderError (Except RenderError String × LogEntry) →
      Except RenderError String × (Machine × Array LogEntry)
  | .ok (result, entry) => (result, (m, log.push entry))
  | .error e => (.error e, (m, log))

/-- A program that is run leaves its message, and gives what its statements give. -/
theorem run_runBy_eq {ops : Ops} {program : Program} {c : Value} {m m' : Machine} {log : Array LogEntry}
    {r : Except RenderError (Except RenderError String × LogEntry)} (hbody : program.body = some body)
    (h : (Rendering.ofRunBy ops (Render.runBody ops program true body c)).run.run (m, log) =
      (r, (m', log))) :
    (program.runBy ops true c).run.run (m, log) = afterBody m' log r := by
  rw [Program.runBy, hbody]
  dsimp only
  rw [ExceptT.run_bind, StateT.run_bind, h]
  cases r with
  | error e => rfl
  | ok r =>
    obtain ⟨result, entry⟩ := r
    cases result <;> rfl

/-- A template that does not mention names that lead to its context. -/
def Template.KeepsApart (t : Template) : Prop :=
  ∀ body, t.program.body = some body → ∀ k, ∀ s ∈ body, s.Within (templateLimits k)

/-- Rendering with contexts of one content gives the same output or the same error, and leaves the contexts
as they are. -/
theorem renderBy_beside (ht : t.KeepsApart) (hm : m.HasContext d p) (hn : n.HasContext d q)
    (hsize : m.heap.size = n.heap.size) (hshowing : m.showing = n.showing) (steps : Nat)
    (log log' : Array LogEntry) : ∃ r m' n' log₁ log₂,
    (t.renderBy (operations steps) (.ref p.context)).run.run (m, log) = (r, (m', log₁)) ∧
      (t.renderBy (operations steps) (.ref q.context)).run.run (n, log') = (r, (n', log₂)) ∧
      m'.HasContext d p ∧ n'.HasContext d q := by
  have hrender {p : ContextPlace} {m : Machine} (hm : m.HasContext d p) (log : Array LogEntry) :
      (t.renderBy (operations steps) (.ref p.context)).run.run (m, log) =
        (t.program.runBy (operations steps) true (.ref p.context)).run.run (m, log) := by
    rw [Template.renderBy]
    dsimp only
    rw [run_ofRunBy_bind (run_isContext_context hm.context), if_pos rfl, pure_bind]
  rw [hrender hm, hrender hn]
  cases hbody : t.program.body with
  | none =>
    have hrun (c : Value) (m : Machine) (log : Array LogEntry) :
        (t.program.runBy (operations steps) true c).run.run (m, log) =
          (.error (.notRunnable t.program.name), (m, log)) := by
      rw [Program.runBy, hbody]
      rfl
    exact ⟨_, _, _, _, _, hrun _ _ _, hrun _ _ _, hm, hn⟩
  | some body =>
    obtain ⟨r, m', n', hm', hn', hcontexts⟩ := ofRunBy_beside
      (ends_runBody hm hn hsize hshowing t.program (ht body hbody) steps) steps log log'
    rw [run_runBy_eq hbody hm', run_runBy_eq hbody hn']
    cases r with
    | ok r => exact ⟨_, _, _, _, _, rfl, rfl, hcontexts⟩
    | error e => exact ⟨_, _, _, _, _, rfl, rfl, hcontexts⟩

end

/-! ## Copies -/

/-- Writing entries under further names puts them behind those that are there. -/
theorem Script.Entries.Named.writeAll_eq_append {es acc : Entries} {names names' : List String}
    (h : es.Named names) (hacc : acc.Named names') (hdistinct : (names' ++ names).Nodup) :
    es.writeAll acc = acc ++ es := by
  induction es generalizing names acc names' with
  | nil => exact (List.append_nil _).symm
  | cons e es ih =>
    cases names with
    | nil => cases h
    | cons name names =>
      obtain ⟨hkey, hrest⟩ := List.cons.inj h
      obtain ⟨key, v⟩ := e
      cases hkey
      have hnew : ∀ e ∈ acc, e.1.same (.str name) = false := by
        intro e he
        rw [Bool.eq_false_iff]
        intro hsame
        have hmem : e.1 ∈ names'.map Value.str := hacc ▸ List.mem_map_of_mem he
        obtain ⟨name', hname', hkey⟩ := List.mem_map.1 hmem
        rw [Value.same_str.1 hsame] at hkey
        cases hkey
        exact List.disjoint_of_nodup_append hdistinct hname' List.mem_cons_self
      have hinsert : acc.insert (.str name) v = acc ++ [(.str name, v)] := by
        clear hacc ih
        induction acc with
        | nil => rfl
        | cons e acc ih =>
          obtain ⟨he, hacc⟩ := List.forall_mem_cons.1 hnew
          rw [Entries.insert, he, if_neg Bool.false_ne_true, ih hacc]
          rfl
      have hnamed : Entries.Named (acc ++ [(.str name, v)]) (names' ++ [name]) := by
        rw [Entries.Named, List.map_append, hacc, List.map_append]
        rfl
      have happend := ih hrest hnamed (by simpa using hdistinct)
      rw [List.append_assoc] at happend
      change Entries.writeAll es (acc.insert (.str name) v) = _
      rw [hinsert]
      exact happend

section

variable {d : ContextContent} {p q : ContextPlace} {m : Machine} {t : Template}

/-- Where a copy of a context is made on a machine. -/
def Script.Machine.copyPlace (m : Machine) : ContextPlace :=
  ⟨⟨m.heap.size + 1⟩, m.fresh⟩

/-- The machine with a copy of a context. -/
def Script.Machine.withCopy (m : Machine) (d : ContextContent) : Machine :=
  (m.push (.dict d.entries)).push (d.object m.fresh)

/-- A new context with what a context holds is a copy of it. -/
theorem run_new_copy (d : ContextContent) (m : Machine) :
    (Context.new templateOps (contextKind d.html) d.entries (d.escaper.map fun e => .native (.escaper e))).run m =
      .ok (.ref m.copyPlace.context) (m.withCopy d) := by
  have hlimit : stepLimit = 999999999999 + 1 := rfl
  have hnone : Entries.Named [] [] := rfl
  have hentries : Entries.writeAll d.entries [] = d.entries :=
    d.named.writeAll_eq_append hnone (by simpa using d.distinct)
  rw [templateOps, hlimit, run_new d.named, hentries]
  have hfresh : (m.push (.dict d.entries)).fresh = m.copyPlace.context :=
    congrArg Address.mk (Array.size_push _)
  rw [hfresh]
  rfl

theorem hasContext_withCopy (d : ContextContent) (m : Machine) :
    (m.withCopy d).HasContext d m.copyPlace := by
  have hfresh : (m.push (.dict d.entries)).fresh = m.copyPlace.context :=
    congrArg Address.mk (Array.size_push _)
  constructor
  · rw [← hfresh]
    exact Machine.object?_push_fresh _ _
  · refine (Machine.object?_push_of_lt _ _ _ ?_).trans (m.object?_push_fresh _)
    rw [Machine.push, Array.size_push]
    exact Nat.lt_succ_self _

/-! ## Renderings one after the other -/

/-- What is left behind when templates are rendered one after the other with a context. -/
def renderEach (context : Value) (ts : List Template) (start : Machine × Array LogEntry) :
    Machine × Array LogEntry :=
  ts.foldl (fun s t => ((t.render context).run.run s).2) start

/-- Rendering leaves the context as it is, whatever it ends with. -/
theorem hasContext_render (ht : t.KeepsApart) (hm : m.HasContext d p) (log : Array LogEntry) :
    (((t.render (.ref p.context)).run.run (m, log)).2.1).HasContext d p := by
  obtain ⟨r, m', n', log₁, log₂, hrun, -, hm', -⟩ := renderBy_beside ht hm hm rfl rfl stepLimit log log
  have hrun : (t.render (.ref p.context)).run.run (m, log) = (r, (m', log₁)) := hrun
  rw [hrun]
  exact hm'

/-- So do renderings one after the other. -/
theorem hasContext_renderEach {ts : List Template} (hts : ∀ t ∈ ts, t.KeepsApart) (hm : m.HasContext d p)
    (log : Array LogEntry) : (renderEach (.ref p.context) ts (m, log)).1.HasContext d p := by
  induction ts generalizing m log with
  | nil => exact hm
  | cons t ts ih =>
    obtain ⟨ht, hts⟩ := List.forall_mem_cons.1 hts
    exact ih hts (hasContext_render ht hm log) _

/-- Rendering with contexts of one content gives the same output or the same error. -/
theorem render_eq (ht : t.KeepsApart) {n : Machine} (hm : m.HasContext d p) (hn : n.HasContext d q)
    (hsize : m.heap.size = n.heap.size) (hshowing : m.showing = n.showing) (log log' : Array LogEntry) :
    ((t.render (.ref p.context)).run.run (m, log)).1 = ((t.render (.ref q.context)).run.run (n, log')).1 := by
  obtain ⟨r, m', n', log₁, log₂, hrun, hrun', -, -⟩ :=
    renderBy_beside ht hm hn hsize hshowing stepLimit log log'
  have hrun : (t.render (.ref p.context)).run.run (m, log) = (r, (m', log₁)) := hrun
  have hrun' : (t.render (.ref q.context)).run.run (n, log') = (r, (n', log₂)) := hrun'
  rw [hrun, hrun']

/-- Renderings leave their context alone. When templates that do not mention names that lead to their
context have been rendered with it one after the other, whatever each of them ended with, the context has
the same bindings in the same order as before. A further rendering with it gives the same output or error as
one with a copy of what the context held at first that is made then, and as one on any other machine of that
size where a context holds the same, such as one on which none of these templates was rendered. -/
theorem render_leaves_context {ts : List Template} (hts : ∀ t ∈ ts, t.KeepsApart) (hm : m.HasContext d p)
    (log : Array LogEntry) :
    let after := renderEach (.ref p.context) ts (m, log)
    after.1.HasContext d p ∧
    (Context.new templateOps (contextKind d.html) d.entries
        (d.escaper.map fun e => .native (.escaper e))).run after.1 =
      .ok (.ref after.1.copyPlace.context) (after.1.withCopy d) ∧
    ∀ t : Template, t.KeepsApart → ∀ log',
      ((t.render (.ref p.context)).run.run (after.1.withCopy d, log')).1 =
        ((t.render (.ref after.1.copyPlace.context)).run.run (after.1.withCopy d, log')).1 ∧
      ∀ n q, n.HasContext d q → after.1.heap.size = n.heap.size → after.1.showing = n.showing →
        ((t.render (.ref p.context)).run.run after).1 = ((t.render (.ref q.context)).run.run (n, log')).1 := by
  intro after
  have hafter : after.1.HasContext d p := hasContext_renderEach hts hm log
  refine ⟨hafter, run_new_copy d _, fun t ht log' => ⟨?_, fun n q hn hsize hshowing => ?_⟩⟩
  · have hcopied : (after.1.withCopy d).HasContext d p := (hafter.push _).push _
    exact render_eq ht hcopied (hasContext_withCopy d _) rfl rfl log' log'
  · exact render_eq ht hafter hn hsize hshowing _ _

end

/-! ## Block trees -/

namespace Tree

/-- A name of a template's own does not lead to the context. -/
theorem Name.notMem_leadingNames (x : Name) : x.id ∉ leadingNames := by
  have h := x.isOwn
  simp only [isOwnName, Bool.and_eq_true, Option.isNone_iff_eq_none] at h
  obtain ⟨⟨-, hbuiltin⟩, hengine⟩ := h
  intro hmem
  simp only [leadingNames, List.mem_cons, List.not_mem_nil, or_false] at hmem
  rcases hmem with hid | hid | hid | hid <;> rw [hid] at hbuiltin hengine
  · simp [engineNames] at hengine
  · simp [engineNames] at hengine
  · revert hbuiltin
    decide +kernel
  · revert hbuiltin
    decide +kernel

/-- Limits that the statements of block trees are within: they allow every line, the names of a template's
own, and what is put out. -/
structure Admits (L : Limits) : Prop where
  line : ∀ l, L.line l
  name : ∀ x : Name, L.name x.id
  text : ∀ line t, (appendStmt line (textExpr line t)).Within L
  shown : ∀ line escaped (x : Name), (appendStmt line (showExpr line escaped x)).Within L

namespace Admits

variable {L : Limits}

theorem within_name (h : Admits L) (line : Nat) (x : Name) : (Expr.name line x.id).Within L :=
  .name (h.line line) (h.name x)

theorem within_emitStmts (h : Admits L) (line : Nat) (t : Text) : ∀ s ∈ emitStmts line t, s.Within L := by
  unfold emitStmts
  split
  · exact nofun
  · exact List.forall_mem_singleton.2 (h.text line t)

theorem within_bodyStmts (h : Admits L) {line : Nat} {ss : List Stmt} (hss : ∀ s ∈ ss, s.Within L) :
    ∀ s ∈ bodyStmts line ss, s.Within L := by
  unfold bodyStmts
  split
  · exact List.forall_mem_singleton.2 (.pass (h.line line))
  · exact hss

mutual

theorem within_stmts (h : Admits L) (line : Nat) : (n : Node) → ∀ s ∈ n.stmts line, s.Within L
  | .text t _ => by
    rw [Node.stmts]
    exact h.within_emitStmts line t
  | .remark code _ => by
    rw [Node.stmts]
    exact h.within_emitStmts line _
  | .output escaped x _ => by
    rw [Node.stmts]
    exact List.forall_mem_singleton.2 (h.shown line escaped x)
  | .loop _ target source body _ => by
    have hbody : ∀ s ∈ bodyStmts (line + 1) (stmtsAll (line + 1) body), s.Within L :=
      h.within_bodyStmts (h.within_all (line + 1) body)
    rw [Node.stmts]
    exact List.forall_mem_singleton.2
      (.forLoop (h.line _) (h.within_name line target) (h.within_name line source) hbody nofun)
  | .choice _ test body rest => by
    have hbody : ∀ s ∈ bodyStmts (line + 1) (stmtsAll (line + 1) body), s.Within L :=
      h.within_bodyStmts (h.within_all (line + 1) body)
    rw [Node.stmts]
    exact List.forall_mem_singleton.2
      (.ifElse (h.line _) (h.within_name line test) hbody (h.within_rest _ rest))

theorem within_rest (h : Admits L) (line : Nat) : (rest : Branches) → ∀ s ∈ rest.stmts line, s.Within L
  | .finish _ => by
    rw [Branches.stmts]
    exact nofun
  | .otherwise _ body _ => by
    rw [Branches.stmts]
    exact h.within_bodyStmts (h.within_all (line + 1) body)
  | .elseIf _ test body rest => by
    have hbody : ∀ s ∈ bodyStmts (line + 1) (stmtsAll (line + 1) body), s.Within L :=
      h.within_bodyStmts (h.within_all (line + 1) body)
    rw [Branches.stmts]
    exact List.forall_mem_singleton.2
      (.ifElse (h.line _) (h.within_name line test) hbody (h.within_rest _ rest))

theorem within_all (h : Admits L) (line : Nat) : (ns : List Node) → ∀ s ∈ stmtsAll line ns, s.Within L
  | [] => by
    rw [stmtsAll]
    exact nofun
  | n :: rest => by
    rw [stmtsAll]
    exact List.forall_mem_append.2 ⟨h.within_stmts line n, h.within_all _ rest⟩

end

end Admits

/-- Block trees do not mention names that lead to the context, but for calls of the escape. -/
theorem admits_templateLimits (j : Nat) : Admits (templateLimits j) := by
  have happend {line : Nat} {e : Expr} (he : e.Within (templateLimits j)) :
      (appendStmt line e).Within (templateLimits j) := by
    have hbuffer : (templateLimits j).name Render.bufferName := by
      simp [templateLimits, leadingNames, Render.bufferName]
    have harg : ∀ a ∈ [Argument.positional e], a.Within (templateLimits j) :=
      List.forall_mem_singleton.2 (.positional he)
    exact .expr trivial (.call trivial (.member trivial (.name trivial hbuffer) trivial) harg)
  refine ⟨fun _ => trivial, Name.notMem_leadingNames, fun line t => happend (.constant trivial),
    fun line escaped x => happend ?_⟩
  have harg : ∀ a ∈ [Argument.positional (.name line x.id)], a.Within (templateLimits j) :=
    List.forall_mem_singleton.2 (.positional (.name trivial x.notMem_leadingNames))
  cases escaped with
  | true => exact .wrapped trivial ⟨⟨line, rfl⟩, rfl⟩ harg
  | false =>
    have hplain : (templateLimits j).name "_str" := by simp [templateLimits, leadingNames]
    exact .call trivial (.name trivial hplain) harg

/-- The statements of a block tree do not mention names that lead to the context. -/
theorem within_stmtsAll {j : Nat} (line : Nat) (ns : List Node) :
    ∀ s ∈ stmtsAll line ns, s.Within (templateLimits j) :=
  (admits_templateLimits j).within_all line ns

end Tree

/-- A context for HTML with a string of two characters. -/
def stringContext : ContextContent where
  html := true
  escaper := none
  entries := [(.str "items", .str "<2")]
  names := ["items"]
  named := rfl
  distinct := List.nodup_singleton _
  plain := List.forall_mem_singleton.2 trivial

/-- A loop over the characters of a bound string leaves the context alone when it is rendered twice, and
gives a third time what it gives with a copy. -/
theorem render_leaves_stringContext : ∃ program log,
    (Program.ofInstructions Settings.default "page" true
      (Instruction.ofSegments (segmentsAll listTree))).run.run #[] = (.ok program, log) ∧
    let t : Template := ⟨program, true, none⟩
    let m := Machine.start.withCopy stringContext
    let context := Machine.start.copyPlace
    (∀ t' ∈ [t, t], t'.KeepsApart) ∧ m.HasContext stringContext context ∧
      let after := renderEach (.ref context.context) [t, t] (m, log)
      after.1.HasContext stringContext context ∧
        ((t.render (.ref context.context)).run.run (after.1.withCopy stringContext, log)).1 =
          ((t.render (.ref after.1.copyPlace.context)).run.run (after.1.withCopy stringContext, log)).1 := by
  have hdepth : depthAll listTree ≤ maxBlocks := by decide
  obtain ⟨program, log, hcompile, -, hbody, -⟩ :=
    compile_segmentsAll Settings.default "page" true hdepth #[]
  have hapart : Template.KeepsApart ⟨program, true, none⟩ := by
    intro body hsome k
    obtain rfl := Option.some.inj (hbody.symm.trans hsome)
    exact within_stmtsAll 1 listTree
  have hall : ∀ t ∈ [(⟨program, true, none⟩ : Template), ⟨program, true, none⟩], t.KeepsApart := by
    simpa using hapart
  have hcontext := hasContext_withCopy stringContext Machine.start
  obtain ⟨hafter, -, hfurther⟩ := render_leaves_context hall hcontext log
  exact ⟨program, log, hcompile, hall, hcontext, hafter, (hfurther _ hapart log).1⟩

end Stencil
