import Stencil.Proofs.Context.Operations

/-!
# A context is a map

All ways to write to a context and to read from it work on one map from names to values that keeps the
names in the order in which they were first written: a value is written under the text of its name,
whatever kind the name is of, and takes the place of the value that was there. Reading under a string
gives the value in the map by all interfaces, except that the attributes of contexts come before the
bindings. What reads the context, or fails to, leaves the map as it is, and the mapping that a context is
made from is never changed (`map_of_operations`).
-/

namespace Stencil.Context

open Script

section

variable {html : Bool} {m m' : Machine} {c vars : Address} {b : Members}

/-! ## Sequences of operations -/

/-- The map after operations. -/
def Operation.writeAll (b : Members) (os : List Operation) : Members :=
  os.foldl Operation.write b

/-- Whether results of operations are the answers from a map, each from the map at its time. -/
inductive Agree (m : Machine) : Members → List Operation → List (Except Address Answer) → Prop where
  | nil {b : Members} : Agree m b [] []
  | cons {b : Members} {o : Operation} {os : List Operation} {r : Except Address Answer}
      {rs : List (Except Address Answer)} (hanswer : ∀ a ∈ o.answer? b, Matches m r a)
      (hrest : Agree m (o.write b) os rs) : Agree m b (o :: os) (r :: rs)

/-- An exception stays while operations are carried out. -/
theorem Matches.spares {r : Except Address Answer} {a : Except ExceptionKind Answer} (hr : Matches m r a)
    (h : Holds html m c vars b) (hspares : Spares c vars m m') : Matches m' r a := by
  cases a with
  | ok a => exact hr
  | error kind =>
      obtain ⟨e, i, hr, hobject, hcls⟩ := hr
      obtain ⟨escaper, hcontext⟩ := h.object
      have hc : e ≠ c := by
        refine Machine.ne_of_object? hobject hcontext fun heq => ?_
        cases heq
        cases hcls
      have hvars : e ≠ vars := Machine.ne_of_object? hobject h.bindings fun heq => by cases heq
      exact ⟨e, i, hr, (hspares.object? e (Machine.index_lt hobject) hc hvars).trans hobject, hcls⟩

/-- Operations on a context give their answers from the map. -/
theorem exists_performAll (h : Holds html m c vars b) (os : List Operation) (hjson : ∀ o ∈ os, o.isJson) :
    ∃ rs m' enough, Holds html m' c vars (Operation.writeAll b os) ∧ Spares c vars m m' ∧
      Agree m' b os rs ∧
      ∀ n, enough ≤ n → (Operation.performAll (operations n) (.ref c) os).run m = .ok rs m' := by
  induction os generalizing m b with
  | nil => exact ⟨[], m, 0, h, .of_extends (.refl m), .nil, fun _ _ => rfl⟩
  | cons o os ih =>
      obtain ⟨r, m₁, enough, h₁, hspares, hanswer, hrun⟩ := responds h o (hjson o List.mem_cons_self)
      obtain ⟨rs, m', enough', h', hspares', hagree, hrest⟩ :=
        ih h₁ fun o ho => hjson o (List.mem_cons_of_mem _ ho)
      refine ⟨r :: rs, m', max enough enough', h', hspares.trans hspares',
        .cons (fun a ha => (hanswer a ha).spares h₁ hspares') hagree, fun n hn => ?_⟩
      have hfirst := hrun n (Nat.le_trans (Nat.le_max_left ..) hn)
      have hrest := hrest n (Nat.le_trans (Nat.le_max_right ..) hn)
      rw [Operation.performAll] at hrest
      rw [Operation.performAll, List.mapM_cons, EStateM.run_bind, hfirst]
      dsimp only
      rw [EStateM.run_bind, hrest]
      rfl

/-! ## Constructions -/

/-- Whether a value is a mapping with entries, or no value. -/
inductive IsMapping (m : Machine) : Value → List (Data × Value) → Prop where
  | missing : IsMapping m .none []
  | dict {a : Address} {es : List (Data × Value)}
      (hobject : m.object? a = some (.dict (es.map fun e => (keyValue e.1, e.2)))) : IsMapping m (.ref a) es

/-- The entries of a mapping and further bindings by name. -/
def given (es : List (Data × Value)) (more : Members) : List (Data × Value) :=
  es ++ more.map fun e => (.str e.1, e.2)

/-- The map that values are written to under the texts of their names, one after the other. -/
def written (es : List (Data × Value)) : Members :=
  es.foldl (fun b e => b.insert e.1.text e.2) []

/-- The parameters with which contexts are made. -/
def newSlots : List ParamSlot :=
  [ContextMethod.required "self", ContextMethod.optional "vars", ⟨.names, "kwargs", none⟩]

/-- Whether a name is that of a parameter. -/
theorem nameable_newSlots (name : String) :
    (Binding.nameable newSlots).any (·.id == name) = (name == "self" || name == "vars") := by
  change ("self" == name || ("vars" == name || false)) = _
  rw [Bool.or_false, BEq.comm, BEq.comm (a := "vars")]

/-- Bindings under other names than those of the parameters are collected. -/
theorem run_bindNamed_collected {more : Members} (h : ∀ e ∈ more, e.1 ≠ "self" ∧ e.1 ≠ "vars")
    (path : String) (bound extra : Members) (m : Machine) :
    (Binding.bindNamed path newSlots more bound extra).run m = .ok (bound, extra ++ more) m := by
  induction more generalizing extra with
  | nil => rw [List.append_nil, Binding.bindNamed, EStateM.run_pure]
  | cons e more ih =>
      obtain ⟨name, v⟩ := e
      obtain ⟨⟨hself, hvars⟩, hrest⟩ := List.forall_mem_cons.1 h
      rw [Binding.bindNamed, nameable_newSlots, beq_false_of_ne hself, beq_false_of_ne hvars]
      have hcollector : (Binding.collector? newSlots .names).isSome = true := rfl
      rw [if_neg (by exact Bool.false_ne_true), if_pos hcollector, ih hrest, List.append_assoc,
        List.singleton_append]

/-- A binding under the name of a parameter that has its value already is refused. -/
theorem run_bindNamed_refused {more : Members} (h : ¬ ∀ e ∈ more, e.1 ≠ "self" ∧ e.1 ≠ "vars")
    (path : String) (v w : Value) (extra : Members) (m : Machine) :
    ∃ e m', (Binding.bindNamed path newSlots more [("self", v), ("vars", w)] extra).run m =
      .error (.raised e) m' := by
  induction more generalizing extra with
  | nil => exact absurd (List.forall_mem_nil _) h
  | cons e more ih =>
      obtain ⟨name, x⟩ := e
      rw [Binding.bindNamed, nameable_newSlots]
      by_cases hname : name = "self" ∨ name = "vars"
      · rcases hname with rfl | rfl
        · exact ⟨_, _, rfl⟩
        · exact ⟨_, _, rfl⟩
      · obtain ⟨hself, hvars⟩ := not_or.1 hname
        have hcollector : (Binding.collector? newSlots .names).isSome = true := rfl
        rw [beq_false_of_ne hself, beq_false_of_ne hvars, if_neg (by exact Bool.false_ne_true),
          if_pos hcollector]
        exact ih (fun hrest => h (List.forall_mem_cons.2 ⟨⟨hself, hvars⟩, hrest⟩)) _

/-- Binding the arguments with which a context is made collects the further bindings. -/
theorem run_bind_collected {more : Members} (h : ∀ e ∈ more, e.1 ≠ "self" ∧ e.1 ≠ "vars")
    (path : String) (v : Value) (m : Machine) :
    (Binding.bind path newSlots [.none, v] more).run m =
      .ok [("self", .none), ("vars", v), ("kwargs", .ref m.fresh)]
        (m.push (.dict (more.map fun e => (.str e.1, e.2)))) := by
  have hnamed := run_bindNamed_collected h path [("self", .none), ("vars", v)] [] m
  refine (run_bind_of_ok hnamed).trans ?_
  rfl

/-- Entries under scalars are named by their texts, unless one of them is an integer with too many
digits. -/
theorem run_named (es : List (Data × Value)) (hkeys : ∀ e ∈ es, e.1.IsKey) (n : Nat) (m : Machine) :
    (named (operations (n + 2)) (es.map fun e => (keyValue e.1, e.2))).run m =
      (unlessLong (es.all fun e => e.1.isShort) (es.map fun e => (.str e.1.text, e.2))).run m := by
  induction es with
  | nil => rfl
  | cons e es ih =>
      have hfirst : (do return (.str (← (operations (n + 2)).str (keyValue e.1)), e.2) :
          Run (Value × Value)).run m = (unlessLong e.1.isShort (.str e.1.text, e.2)).run m :=
        run_bind_pure_unlessLong (fun s => (Value.str s, e.2)) (run_str_key (hkeys e List.mem_cons_self) n m)
      have hrest := ih fun e he => hkeys e (List.mem_cons_of_mem _ he)
      rw [List.map_cons, named, List.mapM_cons, List.all_cons]
      exact run_bind_unlessLong hfirst (run_bind_pure_unlessLong _ hrest)

/-- The dictionary of named entries holds the map that they are written to. -/
theorem writeAll_named (es : List (Data × Value)) :
    Entries.writeAll (es.map fun e => (.str e.1.text, e.2)) [] = (written es).entries := by
  have hwrite (b : Members) : Entries.writeAll (es.map fun e => (.str e.1.text, e.2)) b.entries =
      (es.foldl (fun b e => b.insert e.1.text e.2) b).entries := by
    induction es generalizing b with
    | nil => rfl
    | cons e es ih =>
        rw [List.foldl_cons, ← ih, ← Members.entries_insert]
        rfl
  exact hwrite []

/-- Whether a context can be made: all names have texts, and no binding is given under the name of one of the
parameters. -/
def Accepts (es : List (Data × Value)) (more : Members) : Prop :=
  (∀ e ∈ es, e.1.isShort) ∧ ∀ e ∈ more, e.1 ≠ "self" ∧ e.1 ≠ "vars"

/-- The arguments of a context are bound before its bindings are written. -/
theorem run_ofArguments {v : Value} {es : List (Data × Value)} (hmapping : IsMapping m v es) (html : Bool)
    (more : Members) (escaper : Option Value) (ops : Ops) :
    (ofArguments ops (contextKind html) v more escaper).run m = (do
      let _ ← Binding.bind s!"{ContextMethod.pathOf (contextKind html)}.__init__" newSlots [.none, v] more
      new ops (contextKind html) ((given es more).map fun e => (keyValue e.1, e.2)) escaper :
        Run Value).run m := by
  have hgiven : (given es more).map (fun e => (keyValue e.1, e.2)) =
      es.map (fun e => (keyValue e.1, e.2)) ++ more.map fun e => (.str e.1, e.2) := by
    rw [given, List.map_append, List.map_map]
    rfl
  rw [hgiven]
  cases hmapping with
  | missing => cases html <;> rfl
  | dict hobject =>
      refine (run_bind_of_ok (Run.run_entries hobject)).trans ?_
      cases html <;> rfl

/-- Further bindings are under names with texts. -/
theorem all_isShort_given (es : List (Data × Value)) (more : Members) :
    ((given es more).all fun e => e.1.isShort) = es.all fun e => e.1.isShort := by
  have hmore : ((more.map fun e => (Data.str e.1, e.2)).all fun e => e.1.isShort) = true :=
    List.all_eq_true.2 fun e he => by
      obtain ⟨binding, -, rfl⟩ := List.mem_map.1 he
      rfl
  rw [given, List.all_append, hmore, Bool.and_true]

/-- Further bindings are under names that can be keys. -/
theorem isKey_given {es : List (Data × Value)} (hkeys : ∀ e ∈ es, e.1.IsKey) (more : Members) :
    ∀ e ∈ given es more, e.1.IsKey := by
  intro e he
  rcases List.mem_append.1 he with he | he
  · exact hkeys e he
  · obtain ⟨binding, -, rfl⟩ := List.mem_map.1 he
    rfl

/-- A context is made with a map of its bindings. -/
theorem exists_ofArguments {v : Value} {es : List (Data × Value)} (hmapping : IsMapping m v es)
    (hkeys : ∀ e ∈ es, e.1.IsKey) (hshowing : m.showing = []) (html : Bool) {more : Members}
    (haccepts : Accepts es more) (escaper : Option Value) :
    ∃ c vars m', (∀ n, 2 ≤ n → (ofArguments (operations n) (contextKind html) v more escaper).run m =
        .ok (.ref c) m') ∧
      m.Extends m' ∧ m.heap.size ≤ c.index ∧ m.heap.size ≤ vars.index ∧
      Holds html m' c vars (written (given es more)) := by
  -- the further bindings are collected in a dictionary of their own before the context is made
  obtain ⟨hshort, hcollected⟩ := haccepts
  have hbind := run_bind_collected hcollected s!"{ContextMethod.pathOf (contextKind html)}.__init__" v m
  have hext := Machine.Extends.push m (.dict (more.map fun e => (.str e.1, e.2)))
  generalize m.push (.dict (more.map fun e => (.str e.1, e.2))) = m₁ at hbind hext
  have hall : ((given es more).all fun e => e.1.isShort) = true := by
    rw [all_isShort_given, List.all_eq_true]
    exact hshort
  have hext₂ := Machine.Extends.push m₁ (.dict (written (given es more)).entries)
  have hext₃ := hext₂.trans (.push _ (.instance (contextObject html m₁.fresh escaper)))
  refine ⟨_, m₁.fresh, _, fun n hn => ?_, hext.trans hext₃, ?_, ?_,
    ⟨escaper, Machine.object?_push_fresh _ _⟩, ?_, ?_⟩
  · obtain ⟨n, rfl⟩ := Nat.exists_eq_add_of_le' hn
    have hnamed := run_named (given es more) (isKey_given hkeys more) n m₁
    rw [hall] at hnamed
    have hnew := run_new_of_named hnamed html escaper
    rw [writeAll_named] at hnew
    exact (run_ofArguments hmapping html more escaper _).trans ((run_bind_of_ok hbind).trans hnew)
  · exact (hext.trans hext₂).size_le
  · exact hext.size_le
  · exact (Machine.object?_push_of_lt _ _ _ (Machine.index_lt (m₁.object?_push_fresh _))).trans
      (m₁.object?_push_fresh _)
  · obtain ⟨os, hos⟩ := hext.trans hext₃
    rw [hos]
    exact hshowing

/-- A context that cannot be made raises an exception. -/
theorem exists_ofArguments_error {v : Value} {es : List (Data × Value)} (hmapping : IsMapping m v es)
    (hkeys : ∀ e ∈ es, e.1.IsKey) (html : Bool) {more : Members}
    (hrefused : ¬ Accepts es more) (escaper : Option Value) :
    ∃ e m', ∀ n, 2 ≤ n → (ofArguments (operations n) (contextKind html) v more escaper).run m =
        .error (.raised e) m' := by
  by_cases hcollected : ∀ e ∈ more, e.1 ≠ "self" ∧ e.1 ≠ "vars"
  · have hlong : ((given es more).all fun e => e.1.isShort) = false := by
      rw [all_isShort_given, ← Bool.not_eq_true, List.all_eq_true]
      exact fun hshort => hrefused ⟨hshort, hcollected⟩
    have hbind := run_bind_collected hcollected s!"{ContextMethod.pathOf (contextKind html)}.__init__" v m
    generalize m.push (.dict (more.map fun e => (.str e.1, e.2))) = m₁ at hbind
    refine ⟨m₁.fresh, m₁.push (Run.exceptionObject .valueError tooLongMessage m₁.line), fun n hn => ?_⟩
    obtain ⟨n, rfl⟩ := Nat.exists_eq_add_of_le' hn
    have hnamed := run_named (given es more) (isKey_given hkeys more) n m₁
    rw [hlong] at hnamed
    exact (run_ofArguments hmapping html more escaper _).trans
      ((run_bind_of_ok hbind).trans (run_new_of_error hnamed html escaper))
  · obtain ⟨e, m', hnamed⟩ := run_bindNamed_refused hcollected
      s!"{ContextMethod.pathOf (contextKind html)}.__init__" .none v [] m
    refine ⟨e, m', fun n _ => ?_⟩
    refine (run_ofArguments hmapping html more escaper _).trans (run_bind_of_error ?_)
    exact run_bind_of_error hnamed

/-- A context that can be made holds the map to which its bindings are written, in order, under the texts of
their names. Operations on it keep to that map: what they write is written to it, and what they give is
the answer from it at the time. No other object changes that was there before the context. -/
theorem map_of_operations {v : Value} {es : List (Data × Value)} (hmapping : IsMapping m v es)
    (hkeys : ∀ e ∈ es, e.1.IsKey) (hshowing : m.showing = []) (html : Bool) (more : Members)
    (escaper : Option Value) :
    (Accepts es more → ∃ c vars m₁,
      (∀ n, 2 ≤ n →
        (ofArguments (operations n) (contextKind html) v more escaper).run m = .ok (.ref c) m₁) ∧
      ∀ os : List Operation, (∀ o ∈ os, o.isJson) → ∃ rs m',
        (∃ enough, ∀ n, enough ≤ n →
          (Operation.performAll (operations n) (.ref c) os).run m₁ = .ok rs m') ∧
        Holds html m' c vars (Operation.writeAll (written (given es more)) os) ∧
        Agree m' (written (given es more)) os rs ∧
        ∀ a : Address, a.index < m.heap.size → m'.object? a = m.object? a) ∧
    (¬ Accepts es more → ∃ e m', ∀ n, 2 ≤ n →
      (ofArguments (operations n) (contextKind html) v more escaper).run m = .error (.raised e) m') := by
  refine ⟨fun haccepts => ?_, fun hrefused =>
    exists_ofArguments_error hmapping hkeys html hrefused escaper⟩
  obtain ⟨c, vars, m₁, hmade, hext, hc, hvars, hholds⟩ :=
    exists_ofArguments hmapping hkeys hshowing html haccepts escaper
  refine ⟨c, vars, m₁, hmade, fun os hjson => ?_⟩
  obtain ⟨rs, m', enough, hholds', hspares, hagree, hrun⟩ := exists_performAll hholds os hjson
  refine ⟨rs, m', ⟨enough, hrun⟩, hholds', hagree, fun a ha => ?_⟩
  -- the context and its dictionary are newer than the objects in question
  have hne {b : Address} (hb : m.heap.size ≤ b.index) : a ≠ b := by
    rintro rfl
    exact Nat.not_lt_of_le hb ha
  rw [hspares.object? a (Nat.lt_of_lt_of_le ha hext.size_le) (hne hc) (hne hvars), hext.object? ha]

/-- A machine with a mapping whose only key is an integer. -/
def numbered : Machine :=
  Machine.start.push (.dict [(.int 1, .str "a")])

/-- A value that is set under the text of an integer takes the place of that of the integer. -/
theorem same_place_of_text : ∃ c vars m₁,
    (∀ n, 2 ≤ n → (ofArguments (operations n) .text (.ref ⟨1⟩) [("x", .none)] none).run numbered =
      .ok (.ref c) m₁) ∧
    ∃ rs m', (∃ enough, ∀ n, enough ≤ n →
        (Operation.performAll (operations n) (.ref c)
          [.set (.str "1") (.str "b"), .get (.int 1) none]).run m₁ = .ok rs m') ∧
      Holds false m' c vars [("1", .str "b"), ("x", .none)] ∧ rs = [.ok .done, .ok (.value .none)] := by
  have hmapping : IsMapping numbered (.ref ⟨1⟩) [(.int 1, .str "a")] := .dict rfl
  have hkeys : ∀ e ∈ [(Data.int 1, Value.str "a")], e.1.IsKey := by
    intro e he
    cases List.mem_singleton.1 he
    rfl
  have haccepts : Accepts [(.int 1, .str "a")] [("x", .none)] :=
    ⟨by decide +kernel, by decide +kernel⟩
  obtain ⟨c, vars, m₁, hmade, hops⟩ :=
    (map_of_operations hmapping hkeys rfl false [("x", .none)] none).1 haccepts
  obtain ⟨rs, m', hrun, hholds, hagree, -⟩ :=
    hops [.set (.str "1") (.str "b"), .get (.int 1) none] (by decide)
  refine ⟨c, vars, m₁, hmade, rs, m', hrun, hholds, ?_⟩
  cases hagree with
  | @cons _ _ _ r _ hset hrest => cases hrest with
    | @cons _ _ _ r' _ hget hnil =>
        cases hnil
        have hdone : r = .ok .done := hset _ rfl
        have hnone : r' = .ok (.value .none) := hget _ rfl
        rw [hdone, hnone]

end

end Stencil.Context
