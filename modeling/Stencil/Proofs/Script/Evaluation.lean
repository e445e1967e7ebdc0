import Stencil.Script.Interpreter
import Stencil.Proofs.Script.Running

/-!
# Evaluation at the top of a script

The statements of a script find the values of names among the globals, and a call with one argument
evaluates the function, then the argument, and then calls. The calls of a template append to its output
and make texts of values.
-/

namespace Stencil.Script

/-! ## Entries -/

/-- Only a string is the same key as a string. -/
theorem Value.same_str {v : Value} {s : String} : v.same (.str s) = true ↔ v = .str s := by
  cases v <;> simp [Value.same]

/-- The value under a name after an entry has been written. -/
theorem Entries.named?_insert (es : Entries) (name name' : String) (v : Value) :
    (es.insert (.str name) v).named? name' = if name' = name then some v else es.named? name' := by
  have hnamed (k w : Value) (rest : Entries) : Entries.named? ((k, w) :: rest) name' =
      if k.same (.str name') then some w else rest.named? name' := by
    rw [named?, find?, List.find?_cons]
    cases k.same (.str name') <;> rfl
  induction es with
  | nil =>
      rw [insert, hnamed]
      by_cases h : name' = name
      · rw [if_pos h, if_pos (Value.same_str.2 (by rw [h]))]
      · rw [if_neg h, if_neg fun hs => h (by cases Value.same_str.1 hs; rfl)]
  | cons e rest ih =>
      obtain ⟨k, w⟩ := e
      rw [insert, hnamed]
      by_cases hk : k.same (.str name)
      · rw [if_pos hk, hnamed, Value.same_str.1 hk]
        by_cases h : name' = name
        · rw [if_pos h, if_pos (Value.same_str.2 (by rw [h]))]
        · have hne : ¬ (Value.str name).same (.str name') := fun hs => h (by
            cases Value.same_str.1 hs; rfl)
          rw [if_neg h, if_neg hne, if_neg hne]
      · rw [if_neg hk, hnamed, ih]
        by_cases h : name' = name
        · rw [h, if_neg hk, if_pos rfl, if_pos rfl]
        · rw [if_neg h, if_neg h]

section

variable {m : Machine} {es : Entries} {name : String}

/-! ## Names -/

/-- A name among the globals has the value there. -/
theorem run_read (hspace : m.object? m.globals = some (.dict es)) {v : Value}
    (hv : es.named? name = some v) : (Scope.read Env.top name).run m = .ok v m := by
  simp [Scope.read, Scope.inNamespace?, Scope.variableOf?, Env.top, Scope.global,
    Run.run_entries hspace, hv]

/-- A name that is neither among the globals nor built in has no value. -/
theorem run_read_undefined (hspace : m.object? m.globals = some (.dict es))
    (hv : es.named? name = none) (hbuiltin : Scope.builtin? name = none) :
    (Scope.read Env.top name).run m = .error (.raised m.fresh)
      (m.push (Run.exceptionObject .nameError s!"name '{name}' is not defined" m.line)) := by
  have hundefined : (Scope.undefined name : Run Value).run m = .error (.raised m.fresh)
    (m.push (Run.exceptionObject .nameError s!"name '{name}' is not defined" m.line)) := rfl
  simp [Scope.read, Scope.inNamespace?, Scope.variableOf?, Env.top, Scope.global,
    Run.run_entries hspace, hv, hbuiltin, hundefined]

/-- Writing a name writes it among the globals. -/
theorem run_write (hspace : m.object? m.globals = some (.dict es)) (v : Value) :
    (Scope.write Env.top name v).run m =
      .ok () (m.put m.globals (.dict (es.insert (.str name) v))) := by
  simp only [Scope.write, Env.top, Scope.variableOf?, List.contains_nil, Bool.false_eq_true, if_false,
    List.find?_nil, EStateM.run_bind, EStateM.run_get, Scope.writeEntry]
  exact Run.run_change hspace _

/-! ## Expressions -/

variable {env : Env} (n line : Nat)

/-- Evaluating a name reads it. -/
theorem run_eval_name : ((operations (n + 1)).eval env (.name line name)).run m =
    (Scope.read env name).run (m.onLine line) := rfl

/-- Evaluating a text. -/
theorem run_eval_str (s : String) :
    ((operations (n + 1)).eval env (.constant line (.str s))).run m = .ok (.str s) m := rfl

/-- Evaluating a call with one argument. -/
theorem run_eval_call {callee e : Expr} {f : Value} {m m' : Machine}
    (hcallee : ((operations n).eval env callee).run m = .ok f m')
    (hline : ∀ l o id idLine, callee = .member l o id idLine → idLine = line) :
    ((operations (n + 1)).eval env (.call line callee [.positional e])).run m =
      match ((operations n).eval env e).run m' with
      | .ok v m'' => ((operations n).call f [v] []).run (m''.onLine line)
      | .error stop m'' => .error stop m'' := by
  have hcall : (operations (n + 1)).eval env (.call line callee [.positional e]) =
    Eval.call (operations n) env line callee [.positional e] := rfl
  have hargs (f : Value) : Eval.arguments (operations n) env line f [.positional e] = do
      let v ← (operations n).eval env e
      return ([v], []) := by
    simp [Eval.arguments, Eval.positionalArguments, Eval.namedArguments]
  rw [hcall]
  unfold Eval.call
  simp only [EStateM.run_bind, hcallee, hargs]
  cases EStateM.run ((operations n).eval env e) m' with
  | error stop m'' => rfl
  | ok v m'' =>
      simp only [EStateM.run_pure, Run.run_atLine]
      split
      · next l o id idLine => rw [← hline l o id idLine rfl]; rfl
      · rfl

/-! ## Calls -/

/-- The method of a list that appends. -/
theorem run_member_append {b : Address} {xs : Array Value} {m : Machine}
    (h : m.object? b = some (.list xs)) :
    ((operations (n + 1)).member (.ref b) "append").run m = .ok (.method (.ref b) "append") m := by
  have hmethod : Member.kindWith? .list "append" = some .list := by decide +kernel
  change (Member.get (operations n) (.ref b) "append").run m = _
  simp [Member.get, Member.ofKind, Run.classOf, h, hmethod]

/-- A call of the method of a list that appends. -/
theorem run_call_append {b : Address} {xs : Array Value} {m : Machine}
    (h : m.object? b = some (.list xs)) (v : Value) :
    ((operations (n + 1)).call (.method (.ref b) "append") [v] []).run m =
      .ok .none (m.put b (.list (xs.push v))) := by
  obtain ⟨push, hpush, happend⟩ : ∃ push : Object → Object, push (.list xs) = .list (xs.push v) ∧
      ListMethod.call (operations n) b "append" [v] [] = do
        let _ ← Run.items b
        Run.change b push
        return .none := ⟨_, rfl, rfl⟩
  have hnames : ListMethod.names.contains "append" = true := by decide +kernel
  change (Call.method (operations n) (.ref b) "append" [v] []).run m = _
  rw [Call.method]
  simp only [EStateM.run_bind, Run.run_object?, h, hnames, if_true, happend, Run.run_items h,
    Run.run_change h, EStateM.run_pure, hpush]

/-- A call of the escape of a context that keeps the one of its kind. -/
theorem run_call_escape {c : Address} {i : Instance} {k : ContextKind} {m : Machine}
    (h : m.object? c = some (.instance i)) (hcls : i.cls = .kind (.context k))
    (hown : i.members.find? (ContextMethod.escaperMember k) = none)
    (hk : ContextMethod.params? k "escape" = some [ContextMethod.required "value"]) (v : Value) :
    ((operations (n + 1)).call (.method (.ref c) "escape") [v] []).run m =
      (Escaper.apply (operations n) (if k == .html then .html else .text) v).run m := by
  have hbind (path : String) : Binding.bind path
      [ContextMethod.required "self", ContextMethod.required "value"] [.ref c, v] [] =
      pure [("self", .ref c), ("value", v)] := rfl
  have hvalue : (Members.find? [("self", .ref c), ("value", v)] "value").getD .none = v := rfl
  change (Call.method (operations n) (.ref c) "escape" [v] []).run m = _
  rw [Call.method]
  simp only [EStateM.run_bind, Run.run_object?, h, hcls, ContextMethod.call, EStateM.run_pure, hk,
    Option.getD_some, hbind, hvalue, ContextMethod.escape, hown]

/-- A call of the function that makes plain text of a value. -/
theorem run_call_plainText (v : Value) : (operations (n + 1)).call (.native .plainText) [v] [] = do
    return .str (← plainText (operations n) v) := rfl

end

end Stencil.Script
