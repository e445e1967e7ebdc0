import Stencil.Proofs.Script.Running
import Stencil.Proofs.Script.Stepping
import Stencil.Proofs.Tree.Layout

/-!
# The program of a block tree as it runs

On a machine that fits a state, the statements of a tree do what the tree does in that state: where the
tree comes to a new state they end in the usual way, on a machine that fits that state, and where the
tree is at fault they raise the exception of the fault, on a line of the program that belongs to the
template line of the fault (`runs_stmtsAll`).
-/

namespace Stencil.Tree

open Script

/-- As many steps as an operation needs on data below the bound. -/
def Layout.least (L : Layout) : Nat := L.bound + 8

variable {L : Layout} {s : State} {m : Machine}

/-! ## Names -/

/-- A name among the globals is read with its value. -/
theorem Layout.Fits.run_global (h : L.Fits s m) {es : Entries}
    (hes : m.object? L.globals = some (.dict es)) {name : String} {v : Value}
    (hv : es.named? name = some v) (line : Nat) {n : Nat} (hn : 1 ≤ n) :
    ((operations n).eval Env.top (.name line name)).run m = .ok v (m.onLine line) := by
  obtain ⟨n, rfl⟩ := Nat.exists_eq_add_of_le' hn
  have hspace : (m.onLine line).object? (m.onLine line).globals = some (.dict es) := by
    rw [Machine.globals_onLine, h.globals]
    exact hes
  rw [run_eval_name, run_read hspace hv]

/-- A name that has a value. -/
theorem Layout.Fits.run_name (h : L.Fits s m) {x : Name} {d : Data} (hd : s.values x.id = some d)
    (line : Nat) : ∃ v, Denotes m L.bound v d ∧ ∀ n ≥ 1,
      ((operations n).eval Env.top (.name line x.id)).run m = .ok v (m.onLine line) := by
  obtain ⟨es, hes, hspace⟩ := h.space
  have hvalue := hspace.names x.id x.notMem_engineNames.1
  rw [hd] at hvalue
  cases hnamed : es.named? x.id with
  | none =>
      rw [hnamed] at hvalue
      cases hvalue
  | some v =>
      rw [hnamed] at hvalue
      cases hvalue with
      | some hdenotes => exact ⟨v, hdenotes, fun n hn => h.run_global hes hnamed line hn⟩

/-- A name that has no value. -/
theorem Layout.Fits.run_name_undefined (h : L.Fits s m) {x : Name} (hd : s.values x.id = none)
    (line : Nat) {n : Nat} (hn : 1 ≤ n) (l : Int) :
    ((operations n).eval Env.top (.name line x.id)).run m = .error (.raised m.fresh)
      ((m.onLine line).push (Run.exceptionObject (Fault.undefined x.id l).kind
        (Fault.undefined x.id l).message line)) := by
  obtain ⟨n, rfl⟩ := Nat.exists_eq_add_of_le' hn
  obtain ⟨es, hes, hspace⟩ := h.space
  have hvalue := hspace.names x.id x.notMem_engineNames.1
  rw [hd] at hvalue
  have hnamed : es.named? x.id = none := by
    cases hnamed : es.named? x.id with
    | none => rfl
    | some v =>
        rw [hnamed] at hvalue
        cases hvalue
  have hglobals : (m.onLine line).object? (m.onLine line).globals = some (.dict es) := by
    rw [Machine.globals_onLine, h.globals]
    exact hes
  rw [run_eval_name, run_read_undefined hglobals hnamed x.notMem_engineNames.2]
  rfl

/-! ## Output -/

section

variable {env : Env} {b : Address} {xs : Array Value} {line : Nat}

/-- The method that adds to the list under the name of the output. -/
theorem run_appender
    (hbuffer : (Scope.read env Render.bufferName).run (m.onLine line) = .ok (.ref b) (m.onLine line))
    (hxs : m.object? b = some (.list xs)) {n : Nat} (hn : 2 ≤ n) :
    ((operations n).eval env (.member line (.name line Render.bufferName) "append" line)).run m =
      .ok (.method (.ref b) "append") (m.onLine line) := by
  obtain ⟨n, rfl⟩ := Nat.exists_eq_add_of_le' hn
  have hname : ((operations (n + 1)).eval env (.name line Render.bufferName)).run m =
      .ok (.ref b) (m.onLine line) := by
    rw [run_eval_name, hbuffer]
  change (do
    let v ← (operations (n + 1)).eval env (.name line Render.bufferName)
    Run.atLine line
    (operations (n + 1)).member v "append" : Run Value).run m = _
  simp only [EStateM.run_bind, hname, Run.run_atLine]
  exact run_member_append n hxs

/-- A statement that adds the value of an expression to the list under the name of the output evaluates
the expression first. -/
theorem run_appendStmt
    (hbuffer : (Scope.read env Render.bufferName).run (m.onLine line) = .ok (.ref b) (m.onLine line))
    (hxs : m.object? b = some (.list xs)) (e : Expr) (n : Nat) (rest : List Task) :
    (Statement.execute (operations (n + 3)) env (appendStmt line e) rest).run m =
      match ((operations (n + 2)).eval env e).run (m.onLine line) with
      | .ok v m' => (do
          let _ ← (operations (n + 2)).call (.method (.ref b) "append") [v] []
          Statement.proceed rest : Run Statement.Move).run (m'.onLine line)
      | .error stop m' => .error stop m' := by
  have hcall := run_eval_call (n + 2) line (e := e)
    (run_appender hbuffer hxs (n := n + 2) (Nat.le_add_left 2 n)) fun l o id idLine heq => by
      cases heq
      rfl
  change (do
    let v ← (operations (n + 3)).eval env (.call line
      (.member line (.name line Render.bufferName) "append" line) [.positional e])
    Statement.receive (operations (n + 3)) env .drop v rest : Run Statement.Move).run m = _
  rw [EStateM.run_bind, hcall]
  cases EStateM.run ((operations (n + 2)).eval env e) (m.onLine line) with
  | error stop m' => rfl
  | ok v m' =>
      dsimp only
      rw [EStateM.run_bind]
      rfl

end

/-- The name of the output stands for the list under it among the globals. -/
theorem run_read_buffer {es : Entries} {b : Address} (hspace : m.object? m.globals = some (.dict es))
    (hbuffer : es.named? Render.bufferName = some (.ref b)) (line : Nat) :
    (Scope.read Env.top Render.bufferName).run (m.onLine line) = .ok (.ref b) (m.onLine line) :=
  run_read (show (m.onLine line).object? (m.onLine line).globals = some (.dict es) from hspace) hbuffer

/-- The method that adds to the output. -/
theorem Layout.Fits.run_appender (h : L.Fits s m) (line : Nat) {n : Nat} (hn : 2 ≤ n) :
    ((operations n).eval Env.top
        (.member line (.name line Render.bufferName) "append" line)).run m =
      .ok (.method (.ref L.buffer) "append") (m.onLine line) := by
  obtain ⟨es, hes, hspace⟩ := h.space
  obtain ⟨pieces, hpieces, -⟩ := h.buffer
  exact Tree.run_appender (run_read_buffer (h.globals ▸ hes) hspace.buffer line) hpieces hn

/-- A statement that adds the value of an expression to the output evaluates the expression first. -/
theorem Layout.Fits.run_appendStmt (h : L.Fits s m) (line : Nat) (e : Expr) (n : Nat)
    (rest : List Task) :
    (Statement.execute (operations (n + 3)) Env.top (appendStmt line e) rest).run m =
      match ((operations (n + 2)).eval Env.top e).run (m.onLine line) with
      | .ok v m' => (do
          let _ ← (operations (n + 2)).call (.method (.ref L.buffer) "append") [v] []
          Statement.proceed rest : Run Statement.Move).run (m'.onLine line)
      | .error stop m' => .error stop m' := by
  obtain ⟨es, hes, hspace⟩ := h.space
  obtain ⟨pieces, hpieces, -⟩ := h.buffer
  exact Tree.run_appendStmt (run_read_buffer (h.globals ▸ hes) hspace.buffer line) hpieces e n rest

/-- A statement that adds a text to the output. -/
theorem Layout.Fits.does_append (h : L.Fits s m) (line : Nat) {e : Expr} {t : String}
    (he : ∀ n ≥ L.bound + 7, ((operations n).eval Env.top e).run (m.onLine line) =
      .ok (.str t) (m.onLine line)) :
    ∃ m', Does L.least (appendStmt line e) m none m' ∧ L.Fits (s.write t) m' ∧ L.Keeps m m' := by
  obtain ⟨xs, hxs, hfits⟩ := (h.onLine line).write t
  refine ⟨_, .of_execute fun n hn rest => ?_, hfits,
    ((Layout.Keeps.refl m).onLine line).put _ (.inr (.inl rfl))⟩
  rw [Layout.least] at hn
  obtain ⟨n, rfl⟩ := Nat.exists_eq_add_of_le' (show 3 ≤ n by omega)
  rw [show (appendStmt line e).line = line from rfl, (h.onLine line).run_appendStmt,
    Machine.onLine_onLine, he (n + 2) (by omega)]
  dsimp only
  rw [EStateM.run_bind, Machine.onLine_onLine, run_call_append (n + 1) hxs]
  rfl

/-- A statement that adds the value of an expression to the output fails with the expression. -/
theorem Layout.Fits.does_append_error (h : L.Fits s m) (line : Nat) {e : Expr} {a : Address}
    {m' : Machine} (he : ∀ n ≥ L.bound + 7, ((operations n).eval Env.top e).run (m.onLine line) =
      .error (.raised a) m') :
    Does L.least (appendStmt line e) m (some a) m' := by
  refine .of_execute_error fun n hn rest => ?_
  rw [Layout.least] at hn
  obtain ⟨n, rfl⟩ := Nat.exists_eq_add_of_le' (show 3 ≤ n by omega)
  rw [show (appendStmt line e).line = line from rfl, (h.onLine line).run_appendStmt,
    Machine.onLine_onLine, he (n + 2) (by omega)]

/-- The machine on which the exception of a fault has been raised. -/
def Fault.raisedOn (fault : Fault) (m : Machine) (line : Nat) : Machine :=
  (m.onLine line).push (Run.exceptionObject fault.kind fault.message line)

/-- What a computation gives that fails with a fault or gives a value without leaving a trace. -/
def resultOn {α β : Type} (m : Machine) (line : Nat) (f : α → β) :
    Except Fault α → EStateM.Result Stop Machine β
  | .ok a => .ok (f a) (m.onLine line)
  | .error fault => .error (.raised m.fresh) (fault.raisedOn m line)

/-- The function that makes a text of the value of a name. -/
theorem Layout.Fits.run_wrapper (h : L.Fits s m) (line : Nat) (escaped : Bool) {n : Nat}
    (hn : 1 ≤ n) :
    ((operations n).eval Env.top (.name line (String.ofList (wrapper escaped)))).run m =
      .ok (if escaped then .method (.ref L.context) "escape" else .native .plainText)
        (m.onLine line) := by
  obtain ⟨es, hes, hspace⟩ := h.space
  refine h.run_global hes ?_ line hn
  cases escaped with
  | true => exact hspace.escape
  | false => exact hspace.plain

/-- A value is made a text of as the kind of the template says. -/
theorem Layout.Fits.run_call_wrapper (h : L.Fits s m) (escaped : Bool) {v : Value} {d : Data}
    (hd : Denotes m L.bound v d) {n : Nat} (hn : L.bound + 4 ≤ n) (line : Nat) (l : Int) :
    ((operations n).call
        (if escaped then .method (.ref L.context) "escape" else .native .plainText) [v] []).run
        (m.onLine line) =
      resultOn m line Value.str (textOf (escaped && L.html) d l) := by
  obtain ⟨n, rfl⟩ := Nat.exists_eq_add_of_le' (show 1 ≤ n by omega)
  obtain ⟨i, hi, hcls, hown⟩ := h.context
  have hplain : (plainText (operations n) v).run (m.onLine line) =
      (unlessLong d.isShort d.plain).run (m.onLine line) := by
    have hd' : Denotes (m.onLine line) L.bound v d := hd.frame fun a _ => rfl
    refine hd'.run_plainText ?_ ?_
    · rw [Machine.ShowsAbove, Machine.showing_onLine, h.showing]
      exact nofun
    · have := hd.height_le
      omega
  have hresult (f : String → String) : (do
      return Value.str (f (← plainText (operations n) v)) : Run Value).run (m.onLine line) =
        resultOn m line Value.str
          (if d.isShort then .ok (f d.plain) else .error (.tooLong l)) := by
    rw [EStateM.run_bind, hplain, run_unlessLong]
    cases d.isShort <;> rfl
  cases escaped with
  | false =>
      rw [if_neg Bool.false_ne_true, run_call_plainText]
      exact hresult id
  | true =>
      have hparams : ContextMethod.params? L.contextKind "escape" =
          some [ContextMethod.required "value"] := by
        rw [Layout.contextKind]
        cases L.html <;> rfl
      have hescaper : ContextMethod.escaperMember L.contextKind = "escaper" := by
        rw [Layout.contextKind]
        cases L.html <;> rfl
      have hown' : i.members.find? (ContextMethod.escaperMember L.contextKind) = none := by
        rw [hescaper]
        exact hown
      rw [if_pos rfl, run_call_escape n ((m.object?_onLine _ line).trans hi) hcls hown' hparams,
        Bool.true_and, Layout.contextKind, textOf]
      cases L.html with
      | false => exact hresult id
      | true => exact hresult Escape.htmlString

/-- The text of the value of a name. -/
theorem Layout.Fits.run_show (h : L.Fits s m) (line : Nat) (escaped : Bool) (x : Name) (l : Int)
    {n : Nat} (hn : L.bound + 6 ≤ n) :
    ((operations n).eval Env.top (showExpr line escaped x)).run (m.onLine line) =
      resultOn m line Value.str (do
        let d ← s.read x l
        textOf (escaped && L.html) d l) := by
  obtain ⟨n, rfl⟩ := Nat.exists_eq_add_of_le' (show 1 ≤ n by omega)
  have h' := h.onLine line
  rw [showExpr, run_eval_call n line (h'.run_wrapper line escaped (by omega)) nofun,
    Machine.onLine_onLine, State.read]
  cases hd : s.values x.id with
  | none =>
      rw [h'.run_name_undefined hd line (by omega) l]
      rfl
  | some d =>
      obtain ⟨v, hv, hname⟩ := h'.run_name hd line
      rw [hname n (by omega)]
      exact h.run_call_wrapper escaped (hv.frame fun a _ => rfl) (by omega) line l

/-! ## Results -/

/-- The exception for a name without a value is a plain one. -/
theorem Fault.isPlain_undefined (name : String) (l : Int) : (undefined name l).kind.IsPlain :=
  ⟨rfl, rfl, rfl⟩

/-- The exception for a value without items is a plain one. -/
theorem Fault.isPlain_notIterable (d : Data) (l : Int) : (notIterable d l).kind.IsPlain :=
  ⟨rfl, rfl, rfl⟩

/-- The exception for an integer with too many digits is a plain one. -/
theorem Fault.isPlain_tooLong (l : Int) : (tooLong l).kind.IsPlain :=
  ⟨rfl, rfl, rfl⟩

/-- How something that runs comes to its end where a tree has a result: `P` says how it ends and how it
leaves the machine, and the lines of the program from `line` on belong to the rows. -/
def Layout.Result (L : Layout) (m₀ : Machine) (rows : List Row) (line : Nat)
    (P : Option Address → Machine → Prop) : Except Fault State → Prop
  | .ok s => ∃ m, P none m ∧ L.Fits s m ∧ L.Keeps m₀ m
  | .error fault => ∃ m m₁ i row, P (some m₁.fresh) m ∧ m = fault.raisedOn m₁ (line + i) ∧
      fault.kind.IsPlain ∧ rows[i]? = some row ∧ row.line = fault.line

/-- The statements of a body do what a tree does. -/
def Layout.Runs (L : Layout) (rows : List Row) (line : Nat) (ss : List Stmt) (m : Machine) :
    Except Fault State → Prop :=
  L.Result m rows line (DoesAll L.least ss m)

section

variable {m₀ : Machine} {rows : List Row} {line : Nat} {P Q : Option Address → Machine → Prop}
  {r : Except Fault State}

/-- Something else that runs ends in the same way. -/
theorem Layout.Result.imp (h : L.Result m₀ rows line P r) (himp : ∀ o m, P o m → Q o m) :
    L.Result m₀ rows line Q r := by
  cases r with
  | ok s =>
      obtain ⟨m, hm, hrest⟩ := h
      exact ⟨m, himp _ _ hm, hrest⟩
  | error fault =>
      obtain ⟨m, m₁, i, row, hm, hrest⟩ := h
      exact ⟨m, m₁, i, row, himp _ _ hm, hrest⟩

/-- What came before has kept the objects too. -/
theorem Layout.Result.of_keeps {m : Machine} (h : L.Result m rows line P r) (hkeeps : L.Keeps m₀ m) :
    L.Result m₀ rows line P r := by
  cases r with
  | ok s =>
      obtain ⟨m', hm', hfits, hkeeps'⟩ := h
      exact ⟨m', hm', hfits, hkeeps.trans hkeeps'⟩
  | error fault => exact h

/-- Lines within a program. -/
theorem Layout.Result.within (before : List Row)
    (h : L.Result m₀ rows (line + before.length) P r) (after : List Row) :
    L.Result m₀ (before ++ rows ++ after) line P r := by
  cases r with
  | ok s => exact h
  | error fault =>
      obtain ⟨m, m₁, i, row, hm, heq, hkind, hrow, hline⟩ := h
      refine ⟨m, m₁, before.length + i, row, hm, ?_, hkind, ?_, hline⟩
      · rw [heq, Nat.add_assoc]
      · rw [List.append_assoc, List.getElem?_append_right (Nat.le_add_right _ _),
          Nat.add_sub_cancel_left]
        exact (List.getElem?_append_left (List.getElem?_eq_some_iff.1 hrow).1).trans hrow

/-- A fault on the first line. -/
theorem Layout.Result.fault {fault : Fault} {row : Row} (hkind : fault.kind.IsPlain)
    (hP : P (some m.fresh) (fault.raisedOn m line)) (hrow : row.line = fault.line)
    (after : List Row) : L.Result m₀ (row :: after) line P (.error fault) :=
  ⟨_, m, 0, row, hP, rfl, hkind, rfl, hrow⟩

/-- The statements of one part and those of another one behind it. -/
theorem Layout.Runs.append {rows' : List Row} {ss ss' : List Stmt}
    {f : State → Except Fault State} (h : L.Runs rows line ss m r)
    (h' : ∀ s m₁, L.Fits s m₁ → L.Runs rows' (line + rows.length) ss' m₁ (f s)) :
    L.Runs (rows ++ rows') line (ss ++ ss') m (r >>= f) := by
  cases r with
  | ok s =>
      obtain ⟨m₁, hdoes, hfits, hkeeps⟩ := h
      have hrest := ((h' s m₁ hfits).of_keeps hkeeps).within rows []
      rw [List.append_nil] at hrest
      exact hrest.imp fun o m' hm' => hdoes.append hm'
  | error fault =>
      obtain ⟨m', m₁, i, row, hdoes, heq, hkind, hrow, hline⟩ := h
      refine ⟨m', m₁, i, row, hdoes.append_raised ss', heq, hkind, ?_, hline⟩
      exact (List.getElem?_append_left (List.getElem?_eq_some_iff.1 hrow).1).trans hrow

/-- The statements of a body, which does nothing where it has none. -/
theorem Layout.Runs.body {ns : List Node} {depth : Nat}
    (h : L.Runs (rowsAll depth ns) line (stmtsAll line ns) m r) (l : Int) :
    L.Runs (bodyRows depth l (rowsAll depth ns)) line (bodyStmts line (stmtsAll line ns)) m r := by
  by_cases hss : stmtsAll line ns = []
  · have hrows := (@stmtsAll_eq_nil line depth ns).1 hss
    have hidle : DoesAll L.least [.pass line] m none (m.onLine line) :=
      .single (.of_execute fun _ _ _ => rfl)
    rw [bodyStmts, if_pos hss, bodyRows, if_pos hrows]
    rw [hss, hrows] at h
    cases r with
    | ok s =>
        obtain ⟨m', hdoes, hfits, hkeeps⟩ := h
        cases hdoes
        exact ⟨m.onLine line, hidle, hfits.onLine line, hkeeps.onLine line⟩
    | error fault =>
        obtain ⟨m', m₁, i, row, -, -, -, hrow, -⟩ := h
        cases hrow
  · rw [bodyStmts, if_neg hss, bodyRows, if_neg (mt (@stmtsAll_eq_nil line depth ns).2 hss)]
    exact h

end

/-! ## Loops -/

/-- Assigning a value to a name. -/
theorem run_targets_name (ops : Ops) (line : Nat) (name : String) (v : Value) (m : Machine) :
    (Assign.targets ops Env.top [.name line name] v).run m =
      (Scope.write Env.top name v).run (m.onLine line) := by
  have htargets : Assign.targets ops Env.top [.name line name] v = (do
      Assign.target ops Env.top (999999 + 1) (.name line name) v
      pure PUnit.unit) := rfl
  rw [htargets, Assign.target]
  simp only [EStateM.run_bind, Run.run_atLine]
  cases EStateM.run (Scope.write Env.top name v) (m.onLine line) <;> rfl

/-- Operations that have the steps that data needs advance an iterator with one step less. -/
theorem Layout.advance_of_least {n : Nat} (hn : n ≥ L.least) :
    (operations n).advance = Iterate.advance (operations (n - 1)) := by
  obtain ⟨n, rfl⟩ := Nat.exists_eq_add_of_le' (Nat.le_trans (Nat.le_add_left 1 (L.bound + 7)) hn)
  rfl

/-- One turn of a loop up to its body: the next item is taken from the iterator and bound to the target.
The iterator stands outside the data and the places of the layout, so neither sees it move. -/
theorem Layout.Fits.loop_item {line : Nat} {target : Name} {m₀ : Machine} {a : Address}
    (hbound : L.bound ≤ a.index) (hplaces : a ∉ [L.globals, L.context, L.buffer])
    (hnew : m₀.heap.size ≤ a.index) {i : Iterator} {d : Data} {ds : List Data} (h : L.Fits s m)
    (hkeeps : L.Keeps m₀ m) (hobject : m.object? a = some (.iterator i))
    (hremaining : Remaining m L.bound i (d :: ds)) : ∃ v i' m₁ m₂,
      (∀ n ≥ L.least, ((operations n).advance (.ref a) .none).run (m.onLine line) = .ok (.item v) m₁) ∧
      (∀ n ≥ L.least,
        (Assign.targets (operations n) Env.top [.name line target.id] v).run m₁ = .ok () m₂) ∧
      L.Fits (s.bind target.id d) m₂ ∧ L.Keeps m₀ m₂ ∧ m₂.object? a = some (.iterator i') ∧
      Remaining m₂ L.bound i' ds := by
  have hremaining' : Remaining (m.onLine line) L.bound i (d :: ds) :=
    hremaining.frame fun b _ => m.object?_onLine b line
  obtain ⟨v, i', hitem, hv, hrest⟩ := hremaining'.run_advance hobject
  let m₁ := (m.onLine line).put a (.iterator i')
  have hfits₁ : L.Fits s (m₁.onLine line) :=
    ((h.onLine line).put hbound hplaces (.iterator i')).onLine line
  have hkeeps₁ : L.Keeps m₀ (m₁.onLine line) :=
    ((hkeeps.onLine line).put _ (.inr (.inr hnew))).onLine line
  have hdata₁ (b : Address) (hb : b.index < L.bound) :
      (m₁.onLine line).object? b = (m.onLine line).object? b :=
    data_put hbound (.iterator i') b hb
  obtain ⟨es, hes, hfits₂⟩ := hfits₁.bind target.notMem_engineNames.1 (hv.frame hdata₁)
  let m₂ := (m₁.onLine line).put L.globals (.dict (es.insert (.str target.id) v))
  have hdata₂ (b : Address) (hb : b.index < L.bound) : m₂.object? b = (m.onLine line).object? b :=
    (data_put h.le_globals _ b hb).trans (hdata₁ b hb)
  refine ⟨v, i', m₁, m₂, fun n hn => ?_, fun n _ => ?_, hfits₂, hkeeps₁.put _ (.inl rfl), ?_,
    hrest.frame hdata₂⟩
  · rw [Layout.advance_of_least hn, hitem]
  · have hglobals : (m₁.onLine line).globals = L.globals := hfits₁.globals
    rw [run_targets_name, run_write (by rw [hglobals]; exact hes), hglobals]
  · rw [Machine.object?_put_of_ne _ _ _ _ fun heq => hplaces (by rw [← heq]; simp)]
    exact Machine.object?_put_self hobject _

/-- A loop over items, each of which the body is run for. -/
theorem Layout.ends_loop {rows : List Row} {line : Nat} {body : List Stmt} {target : Name}
    {eval : State → Except Fault State} {m₀ : Machine} {a : Address}
    (hbody : ∀ s m, L.Fits s m → L.Runs rows (line + 1) body m (eval s))
    (hbound : L.bound ≤ a.index) (hplaces : a ∉ [L.globals, L.context, L.buffer])
    (hnew : m₀.heap.size ≤ a.index) (items : List Data) {s : State} {m : Machine} {i : Iterator}
    (h : L.Fits s m) (hkeeps : L.Keeps m₀ m) (hobject : m.object? a = some (.iterator i))
    (hremaining : Remaining m L.bound i items) :
    L.Result m₀ rows (line + 1)
      (Ends L.least (.forLoop line (.ref a) (.name line target.id) body []) m)
      (items.foldlM (fun s d => eval (s.bind target.id d)) s) := by
  induction items generalizing s m i with
  | nil =>
      have hremaining' : Remaining (m.onLine line) L.bound i [] :=
        hremaining.frame fun b _ => m.object?_onLine b line
      obtain ⟨i', hdone⟩ := hremaining'.run_advance_done hobject
      refine ⟨(m.onLine line).put a (.iterator i'), ends_loop_done (v := .none) fun n hn => ?_,
        (h.onLine line).put hbound hplaces _, (hkeeps.onLine line).put _ (.inr (.inr hnew))⟩
      rw [Layout.advance_of_least hn, hdone]
  | cons d ds ih =>
      obtain ⟨v, i', m₁, m₂, hitem, hassign, hfits₂, hkeeps₂, hobject₂, hrest⟩ :=
        Layout.Fits.loop_item hbound hplaces hnew h hkeeps hobject hremaining
      have hrun := hbody _ m₂ hfits₂
      rw [List.foldlM_cons]
      cases heval : eval (s.bind target.id d) with
      | error fault =>
          rw [heval] at hrun
          obtain ⟨m', m₃, j, row, hdoes, hraised⟩ := hrun
          exact ⟨m', m₃, j, row, ends_loop_raised hitem hassign hdoes, hraised⟩
      | ok s₃ =>
          rw [heval] at hrun
          obtain ⟨m₃, hdoes, hfits₃, hkeeps₃⟩ := hrun
          -- the body leaves the iterator alone, which is none of its places
          have hobject₃ : m₃.object? a = some (.iterator i') := by
            rw [hkeeps₃.object? a (Machine.index_lt hobject₂), hobject₂]
            · exact fun heq => hplaces (by rw [heq]; simp)
            · exact fun heq => hplaces (by rw [heq]; simp)
          have hmore := ih hfits₃ (hkeeps₂.trans hkeeps₃) hobject₃
            (hrest.frame (hfits₂.data_of_keeps hkeeps₃))
          exact hmore.imp fun o m' hm' => ends_loop_item hitem hassign hdoes hm'

/-! ## Nodes -/

/-- Operations that have the steps that data needs can take one. -/
theorem Layout.one_le_of_least {n : Nat} (hn : n ≥ L.least) : 1 ≤ n :=
  Nat.le_trans (Nat.le_add_left 1 (L.bound + 7)) hn

/-- A text is put out. -/
theorem Layout.Fits.runs_emit (h : L.Fits s m) (depth line : Nat) (t : Text) (l : Int) :
    L.Runs (emitRows depth t l) line (emitStmts line t) m (.ok (s.write (String.ofList t))) := by
  rw [emitRows, emitStmts]
  split
  · next ht =>
      have hwrite : s.write (String.ofList t) = s := by simp [State.write, ht]
      rw [hwrite]
      exact ⟨m, .nil, h, .refl m⟩
  · have htext (n : Nat) (hn : n ≥ L.bound + 7) :
        ((operations n).eval Env.top (textExpr line t)).run (m.onLine line) =
          .ok (.str (String.ofList t)) (m.onLine line) := by
      obtain ⟨n, rfl⟩ := Nat.exists_eq_add_of_le' (Nat.le_trans (Nat.le_add_left 1 (L.bound + 6)) hn)
      exact run_eval_str n line _
    obtain ⟨m', hdoes, hfits, hkeeps⟩ := h.does_append line htext
    exact ⟨m', .single hdoes, hfits, hkeeps⟩

/-- The value of a name is put out. -/
theorem Layout.Fits.runs_output (h : L.Fits s m) (depth line : Nat) (escaped : Bool) (x : Name)
    (l : Int) :
    L.Runs [⟨depth, .put escaped x, l⟩] line [appendStmt line (showExpr line escaped x)] m (do
      let d ← s.read x l
      let t ← textOf (escaped && L.html) d l
      return s.write t) := by
  have hshow (n : Nat) (hn : n ≥ L.bound + 7) :
      ((operations n).eval Env.top (showExpr line escaped x)).run (m.onLine line) =
        resultOn m line Value.str (do
          let d ← s.read x l
          textOf (escaped && L.html) d l) := h.run_show line escaped x l (by omega)
  rw [← bind_assoc]
  generalize hr : (do
    let d ← s.read x l
    textOf (escaped && L.html) d l : Except Fault String) = r at hshow ⊢
  cases r with
  | ok t =>
      obtain ⟨m', hdoes, hfits, hkeeps⟩ := h.does_append line hshow
      exact ⟨m', .single hdoes, hfits, hkeeps⟩
  | error fault =>
      have hfault : fault.kind.IsPlain ∧ fault.line = l := by
        rw [State.read] at hr
        cases hd : s.values x.id with
        | none =>
            rw [hd] at hr
            cases hr
            exact ⟨Fault.isPlain_undefined _ _, rfl⟩
        | some d =>
            rw [hd] at hr
            change textOf (escaped && L.html) d l = _ at hr
            rw [textOf] at hr
            split at hr
            · cases hr
            · cases hr
              exact ⟨Fault.isPlain_tooLong _, rfl⟩
      exact .fault (m := m) hfault.1 (.single (h.does_append_error line hshow)) hfault.2.symm []

/-- A branch of a choice runs its body or the further branches. -/
theorem Layout.Fits.runs_choice (h : L.Fits s m) {line : Nat} (row : Row) {rows rows' : List Row}
    {body orelse : List Stmt} {r r' : Except Fault State} (x : Name)
    (hbody : ∀ m', L.Fits s m' → L.Runs rows (line + 1) body m' r)
    (horelse : ∀ m', L.Fits s m' → L.Runs rows' (line + 1 + rows.length) orelse m' r') :
    L.Runs (row :: (rows ++ rows')) line [.ifElse line (.name line x.id) body orelse] m (do
      let d ← s.read x row.line
      if d.isTruthy then r else r') := by
  have hexecute (ops : Ops) (rest : List Script.Task) :
      Statement.execute ops Env.top (.ifElse line (.name line x.id) body orelse) rest = (do
        let v ← ops.eval Env.top (.name line x.id)
        Run.atLine line
        Statement.proceed (.run (if ← ops.truthy v then body else orelse) :: rest)) := rfl
  rw [State.read]
  cases hd : s.values x.id with
  | none =>
      refine .fault (m := m) (Fault.isPlain_undefined _ _)
        (.single (.of_execute_error fun n hn rest => ?_)) rfl _
      rw [hexecute, Stmt.line, EStateM.run_bind,
        (h.onLine line).run_name_undefined hd line (Layout.one_le_of_least hn) row.line]
      rfl
  | some d =>
      obtain ⟨v, hv, hname⟩ := (h.onLine line).run_name hd line
      have htask (n : Nat) (hn : n ≥ L.least) (rest : List Script.Task) :
          (Statement.execute (operations n) Env.top
            (.ifElse line (.name line x.id) body orelse) rest).run (m.onLine line) =
          .ok (.next .proceed (.run (if d.isTruthy then body else orelse) :: rest))
            (m.onLine line) := by
        simp only [hexecute, EStateM.run_bind, hname n (Layout.one_le_of_least hn), Run.run_atLine,
          Machine.onLine_onLine, hv.run_truthy]
        rfl
      have hdoes {o : Option Address} {m' : Machine}
          (hall : DoesAll L.least (if d.isTruthy then body else orelse) (m.onLine line) o m') :
          DoesAll L.least [.ifElse line (.name line x.id) body orelse] m o m' :=
        .single (.of_task htask hall.ends)
      have hkeeps : L.Keeps m (m.onLine line) := (Layout.Keeps.refl m).onLine line
      change L.Runs _ line _ m (if d.isTruthy then r else r')
      -- the rows of the branch that is run stand among all rows, and so do the lines of its faults
      by_cases htruthy : d.isTruthy
      · rw [if_pos htruthy] at hdoes ⊢
        have hruns := ((hbody _ (h.onLine line)).imp fun _ _ => hdoes).of_keeps hkeeps
        exact hruns.within [row] rows'
      · rw [if_neg htruthy] at hdoes ⊢
        have hruns := ((horelse _ (h.onLine line)).imp fun _ _ => hdoes).of_keeps hkeeps
        have hlength : line + (row :: rows).length = line + 1 + rows.length := by
          rw [List.length_cons]
          omega
        rw [← hlength] at hruns
        have hwithin := hruns.within (row :: rows) []
        rwa [List.append_nil] at hwithin

/-- A loop runs its body for each item. -/
theorem Layout.Fits.runs_loop (h : L.Fits s m) {line : Nat} (row : Row) {rows : List Row}
    {body : List Stmt} {eval : State → Except Fault State} (target source : Name)
    (hbody : ∀ s m', L.Fits s m' → L.Runs rows (line + 1) body m' (eval s)) :
    L.Runs (row :: rows) line
      [.forLoop line false (.name line target.id) (.name line source.id) body []] m (do
        let d ← s.read source row.line
        let items ← itemsOf d row.line
        items.foldlM (fun s d => eval (s.bind target.id d)) s) := by
  have hexecute (ops : Ops) (rest : List Script.Task) :
      Statement.execute ops Env.top
        (.forLoop line false (.name line target.id) (.name line source.id) body []) rest = (do
        let v ← ops.eval Env.top (.name line source.id)
        Run.atLine line
        let iterator ← Iterate.start ops v
        Statement.proceed (.forLoop line iterator (.name line target.id) body [] :: rest)) := rfl
  rw [State.read]
  cases hd : s.values source.id with
  | none =>
      refine .fault (m := m) (Fault.isPlain_undefined _ _)
        (.single (.of_execute_error fun n hn rest => ?_)) rfl _
      rw [hexecute, Stmt.line, EStateM.run_bind,
        (h.onLine line).run_name_undefined hd line (Layout.one_le_of_least hn) row.line]
      rfl
  | some d =>
      obtain ⟨v, hv, hname⟩ := (h.onLine line).run_name hd line
      change L.Runs _ line _ m (do
        let items ← itemsOf d row.line
        items.foldlM (fun s d => eval (s.bind target.id d)) s)
      rw [itemsOf]
      cases hitems : d.items? with
      | none =>
          refine .fault (m := m) (Fault.isPlain_notIterable _ _)
            (.single (.of_execute_error fun n hn rest => ?_)) rfl _
          simp only [hexecute, Stmt.line, EStateM.run_bind, hname n (Layout.one_le_of_least hn),
            Run.run_atLine, Machine.onLine_onLine, hv.run_start_error hitems]
          rfl
      | some items =>
          obtain ⟨i, hstart, hremaining⟩ := hv.run_start hitems
          let m₁ := (m.onLine line).push (.iterator i)
          have hfits₁ : L.Fits s m₁ := (h.onLine line).push _
          have hdata₁ (b : Address) (hb : b.index < L.bound) :
              m₁.object? b = (m.onLine line).object? b :=
            Machine.object?_push_of_lt _ _ _ (Nat.lt_of_lt_of_le hb h.bound_le_size)
          -- the iterator is new, so it is none of the places that the layout keeps
          have hplaces : m.fresh ∉ [L.globals, L.context, L.buffer] :=
            fun hmem => Nat.lt_irrefl _ (h.lt_size hmem)
          have hloop : L.Result m rows (line + 1)
              (Ends L.least (.forLoop line (.ref m.fresh) (.name line target.id) body []) m₁)
              (items.foldlM (fun s d => eval (s.bind target.id d)) s) :=
            Layout.ends_loop hbody h.bound_le_size hplaces (Nat.le_refl m.heap.size) items hfits₁
              (((Layout.Keeps.refl m).onLine line).push _) (Machine.object?_push_fresh _ _)
              (hremaining.frame hdata₁)
          have htask (n : Nat) (hn : n ≥ L.least) (rest : List Script.Task) :
              (Statement.execute (operations n) Env.top (.forLoop line false (.name line target.id)
                (.name line source.id) body []) rest).run (m.onLine line) =
              .ok (.next .proceed
                (.forLoop line (.ref m.fresh) (.name line target.id) body [] :: rest)) m₁ := by
            simp only [hexecute, EStateM.run_bind, hname n (Layout.one_le_of_least hn),
              Run.run_atLine, Machine.onLine_onLine, hstart]
            rfl
          have hruns : L.Runs rows (line + 1)
              [.forLoop line false (.name line target.id) (.name line source.id) body []] m
              (items.foldlM (fun s d => eval (s.bind target.id d)) s) :=
            hloop.imp fun o m' hends => .single (.of_task htask hends)
          have hwithin := hruns.within [row] []
          rwa [List.append_nil] at hwithin

mutual

/-- The statements of a node do what the node does. -/
theorem runs_node (depth : Nat) : (n : Node) → (line : Nat) → {s : State} → {m : Machine} →
    L.Fits s m → L.Runs (n.rows depth) line (n.stmts line) m (n.eval L.html s)
  | .text t l, line, _, _, h => h.runs_emit depth line t l
  | .remark code l, line, _, _, h => h.runs_emit depth line (remarkText code) l
  | .output escaped x l, line, _, _, h => h.runs_output depth line escaped x l
  | .loop head target source body closing, line, _, _, h =>
    h.runs_loop ⟨depth, .header (.loop target source), head.line⟩ target source
      fun _ _ h' => (runs_stmtsAll (depth + 1) body (line + 1) h').body closing.line
  | .choice head test body rest, line, s, _, h => by
      rw [Node.stmts, ← length_bodyRows_rowsAll (depth + 1) rest.line body]
      exact h.runs_choice ⟨depth, .header (.test false test), head.line⟩ test
        (fun _ h' => (runs_stmtsAll (depth + 1) body (line + 1) h').body rest.line)
        fun _ h' => runs_branches depth rest _ h'

/-- The statements of further branches do what the branches do. -/
theorem runs_branches (depth : Nat) : (bs : Branches) → (line : Nat) → {s : State} →
    {m : Machine} → L.Fits s m → L.Runs (bs.rows depth) line (bs.stmts line) m (bs.eval L.html s)
  | .finish _, _, _, m, h => ⟨m, .nil, h, .refl m⟩
  | .otherwise head body closing, line, _, _, h => by
      have hbody := (runs_stmtsAll (depth + 1) body (line + 1) h).body closing.line
      have hwithin := Layout.Result.within [⟨depth, .header .otherwise, head.line⟩] hbody []
      rwa [List.append_nil] at hwithin
  | .elseIf head test body rest, line, _, _, h => by
      rw [Branches.stmts, ← length_bodyRows_rowsAll (depth + 1) rest.line body]
      exact h.runs_choice ⟨depth, .header (.test true test), head.line⟩ test
        (fun _ h' => (runs_stmtsAll (depth + 1) body (line + 1) h').body rest.line)
        fun _ h' => runs_branches depth rest _ h'

/-- The statements of a sequence of nodes do what the nodes do. -/
theorem runs_stmtsAll (depth : Nat) : (ns : List Node) → (line : Nat) → {s : State} →
    {m : Machine} → L.Fits s m → L.Runs (rowsAll depth ns) line (stmtsAll line ns) m
      (evalAll L.html ns s)
  | [], _, _, m, h => ⟨m, .nil, h, .refl m⟩
  | n :: rest, line, _, _, h => by
      rw [stmtsAll, ← n.length_rows depth]
      exact (runs_node depth n line h).append fun _ _ h' => runs_stmtsAll depth rest _ h'

end

end Stencil.Tree
