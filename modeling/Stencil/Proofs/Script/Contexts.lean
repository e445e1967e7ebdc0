import Stencil.Context
import Stencil.Proofs.Script.Evaluation
import Stencil.Proofs.Script.Iterated

/-!
# Contexts on the machine

A new context for text or for HTML keeps its bindings in a dictionary of its own. It lists the names
there, and gives the values under them, so the bindings that a template sees are those of the dictionary.
-/

namespace Stencil.Script

/-- The kind of the contexts for text or for HTML. -/
def contextKind (html : Bool) : ContextKind :=
  if html then .html else .text

/-- A new context that keeps its bindings at an address, with an escaper in place of that of its kind if
one is given. -/
def contextObject (html : Bool) (vars : Address) (escaper : Option Value := none) : Instance :=
  ⟨.kind (.context (contextKind html)), ("_vars", .ref vars) :: escaper.toList.map (("escaper", ·)), [],
    none⟩

/-! ## Methods -/

/-- The first of kinds that has a method. -/
theorem run_fromClasses_kinds (name : String) (ks : List Kind) (m : Machine) :
    (Member.fromClasses? name (ks.map .kind)).run m =
      .ok ((ks.find? fun k => (Member.kindMethods k).contains name).map (.unbound · name)) m := by
  induction ks with
  | nil => rfl
  | cons k ks ih =>
      rw [List.map_cons, Member.fromClasses?]
      by_cases hk : (Member.kindMethods k).contains name
      · rw [if_pos hk, List.find?_cons_of_pos (by exact hk)]
        rfl
      · rw [if_neg hk, List.find?_cons_of_neg (by exact hk)]
        exact ih

/-- The kinds that a context for text or HTML belongs to. -/
def contextKinds (html : Bool) : List Kind :=
  (Kind.context (contextKind html)).ancestors

/-- The method that contexts for text or HTML have under a name. -/
def contextMethod? (html : Bool) (name : String) : Option Kind :=
  (contextKinds html).find? fun k => (Member.kindMethods k).contains name

/-- A context has no members of its own besides its bindings and its escaper. -/
theorem find?_contextObject (html : Bool) (vars : Address) (escaper : Option Value) {name : String}
    (h : name ≠ "_vars" ∧ name ≠ "escaper") :
    (contextObject html vars escaper).members.find? name = none := by
  have hne : (name == "_vars") = false ∧ (name == "escaper") = false :=
    ⟨beq_false_of_ne h.1, beq_false_of_ne h.2⟩
  cases escaper <;> simp [contextObject, Members.find?, List.lookup_cons, hne]

section

variable {m : Machine} {c vars : Address} {html : Bool} {escaper : Option Value} {es : Entries}

/-- Reading an attribute of a context reads the members of its object. -/
theorem run_member_eq (h : m.object? c = some (.instance (contextObject html vars escaper)))
    (name : String) (n : Nat) :
    ((operations (n + 1)).member (.ref c) name).run m =
      (Member.ofInstance (operations n) (.ref c) (contextObject html vars escaper) name).run m := by
  change (Member.get (operations n) (.ref c) name).run m = _
  rw [Member.get, EStateM.run_bind, Run.run_object?, h]

/-- A method of a context. -/
theorem run_member_method (h : m.object? c = some (.instance (contextObject html vars escaper)))
    {name : String} (hmethod : contextMethod? html name ≠ none) (n : Nat) :
    ((operations (n + 1)).member (.ref c) name).run m = .ok (.method (.ref c) name) m := by
  have hown : (contextObject html vars escaper).members.find? name = none := by
    refine find?_contextObject html vars escaper ⟨?_, ?_⟩
    · rintro rfl
      exact hmethod (by cases html <;> decide +kernel)
    · rintro rfl
      exact hmethod (by cases html <;> decide +kernel)
  obtain ⟨k, hk⟩ := Option.ne_none_iff_exists'.1 hmethod
  rw [contextObject] at hown
  rw [run_member_eq h, Member.ofInstance]
  simp only [EStateM.run_bind, contextObject, Run.lineage, EStateM.run_pure]
  rw [← contextKinds, run_fromClasses_kinds, ← contextMethod?, hk]
  simp only [Option.map_some, hown]
  rfl

/-- What a context can be asked is a method of it, whether it escapes or not. -/
theorem contextMethod?_ne_none {name : String}
    (hname : name ∈ ["set", "get", "keys", "items", "escape"]) : contextMethod? html name ≠ none := by
  have hmethods : ∀ html, ∀ name ∈ ["set", "get", "keys", "items", "escape"],
      contextMethod? html name ≠ none := by
    decide +kernel
  exact hmethods html name hname

/-- The methods of a context that rendering uses. -/
theorem run_member_context (h : m.object? c = some (.instance (contextObject html vars escaper)))
    {name : String} (hname : name ∈ ["keys", "get", "escape"]) (n : Nat) :
    ((operations (n + 1)).member (.ref c) name).run m = .ok (.method (.ref c) name) m := by
  have hsubset : ["keys", "get", "escape"] ⊆ ["set", "get", "keys", "items", "escape"] := by simp
  exact run_member_method h (contextMethod?_ne_none (hsubset hname)) n

/-- A call of a method of a context. -/
theorem run_call_context (h : m.object? c = some (.instance (contextObject html vars escaper)))
    (name : String) (args : List Value) (n : Nat) :
    ((operations (n + 1)).call (.method (.ref c) name) args []).run m =
      (ContextMethod.call (operations n) (contextKind html) c name args []).run m := by
  change (Call.method (operations n) (.ref c) name args []).run m = _
  rw [Call.method]
  simp only [EStateM.run_bind, Run.run_object?, h, contextObject]

/-- The names of the bindings of a context. -/
theorem run_keys_context (h : m.object? c = some (.instance (contextObject html vars escaper))) (n : Nat) :
    ((operations (n + 1)).call (.method (.ref c) "keys") [] []).run m = .ok (.view .keys vars) m := by
  rw [run_call_context h]
  cases html <;> simp [ContextMethod.call, h, contextKind] <;> rfl

/-- The value under a name of a context. -/
theorem run_get_context (h : m.object? c = some (.instance (contextObject html vars escaper)))
    (hvars : m.object? vars = some (.dict es)) (name : String) (n : Nat) :
    ((operations (n + 1)).call (.method (.ref c) "get") [.str name] []).run m =
      .ok ((es.named? name).getD .none) m := by
  have hcall : (ContextMethod.call (operations n) (contextKind html) c "get" [.str name] []).run m =
      (ContextMethod.lookup (operations n) (contextKind html) c (contextObject html vars escaper) (.str name)
        .none).run m := by
    rw [ContextMethod.call, EStateM.run_bind, Run.run_object?, h]
    rfl
  have hdict : ContextMethod.dict? (contextKind html) (contextObject html vars escaper) = some vars := by
    cases html <;> rfl
  have hlookup : (DictMethod.lookup? vars (.str name)).run m = .ok (es.named? name) m := by
    have hkey : (Item.checkKey (.str name)).run m = .ok () m := rfl
    rw [DictMethod.lookup?, EStateM.run_bind, hkey]
    dsimp only
    rw [EStateM.run_bind, Run.run_entries hvars]
    rfl
  rw [run_call_context h, hcall]
  cases html <;>
    simp only [ContextMethod.lookup, contextKind, Bool.false_eq_true, if_false, if_true] at hdict ⊢ <;>
    rw [hdict] <;> dsimp only <;> rw [EStateM.run_bind, hlookup] <;> rfl

/-! ## Bindings -/

/-- The entries that have the values under names of a dictionary. -/
def gathered (es : Entries) (names : List String) (acc : Entries) : Entries :=
  names.foldl (fun acc name => acc.insert (.str name) ((es.named? name).getD .none)) acc

/-- The values under names, one after the other. -/
theorem run_valuesUnder (h : m.object? c = some (.instance (contextObject html vars escaper)))
    (hvars : m.object? vars = some (.dict es)) (names : List String) (acc : Entries) (n : Nat) :
    (Context.valuesUnder (fun name => Context.invoke (operations (n + 1)) (.ref c) "get" [name])
      (names.map .str) acc).run m = .ok (gathered es names acc) m := by
  induction names generalizing acc with
  | nil => rfl
  | cons name names ih =>
      have hinvoke : (Context.invoke (operations (n + 1)) (.ref c) "get" [.str name]).run m =
          .ok ((es.named? name).getD .none) m := by
        rw [Context.invoke, EStateM.run_bind, run_member_context h (by simp)]
        exact run_get_context h hvars name n
      have hkey : (Item.checkKey (.str name)).run m = .ok () m := rfl
      rw [List.map_cons, Context.valuesUnder, EStateM.run_bind, hinvoke]
      dsimp only
      rw [EStateM.run_bind, hkey]
      exact ih _

/-- The bindings that a template sees are gathered under the items of the view of its names. -/
theorem run_bindings_eq (h : m.object? c = some (.instance (contextObject html vars escaper))) (n : Nat) :
    (Context.bindings (operations (n + 1)) (.ref c)).run m = (do
      let names ← Iterate.items (operations (n + 1)) (.view .keys vars)
      Context.valuesUnder (fun name => Context.invoke (operations (n + 1)) (.ref c) "get" [name])
        names [] : Run Entries).run m := by
  have hmember : (Run.catching ((operations (n + 1)).member (.ref c) "keys") fun e => do
      if ← Run.isException e .attributeError then return .none else throw (.raised e)).run m =
        .ok (.method (.ref c) "keys") m := Run.run_catching_ok (run_member_context h (by simp) n)
  have hcallable : (Builtin.isCallable (.method (.ref c) "keys")).run m = .ok true m := rfl
  rw [Context.bindings, EStateM.run_bind, hmember]
  dsimp only
  rw [EStateM.run_bind, hcallable]
  dsimp only
  rw [if_pos rfl, EStateM.run_bind, run_keys_context h]

/-- The items of a view of keys are drained from an iterator of their own. -/
theorem run_items_keys (hvars : m.object? vars = some (.dict es)) (ops : Ops) :
    (Iterate.items ops (.view .keys vars)).run m = (do
      let vs ← ops.drain (.ref m.fresh)
      return vs.toList : Run (List Value)).run (m.push (.iterator (.entries .keys vars 0 es.length))) := by
  have hstart : (Iterate.start ops (.view .keys vars)).run m =
      .ok (.ref m.fresh) (m.push (.iterator (.entries .keys vars 0 es.length))) := by
    rw [Iterate.start, Iterate.overEntries, EStateM.run_bind, Run.run_entries hvars]
    rfl
  rw [Iterate.items, EStateM.run_bind, hstart]
  · intro _ hview
    cases hview
  · intro _ hview
    cases hview

/-- The iterator over the names of a dictionary. -/
theorem remaining_keys (hvars : m.object? vars = some (.dict es)) {names : List String}
    (hnames : es.map (·.1) = names.map .str) :
    Remaining (m.push (.iterator (.entries .keys vars 0 es.length))) (vars.index + 1)
      (.entries .keys vars 0 es.length) (names.map .str) := by
  have hvars₁ := (m.object?_push_of_lt vars (.iterator (.entries .keys vars 0 es.length))
    (Machine.index_lt hvars)).trans hvars
  exact .keys (Nat.lt_succ_self _) hvars₁
    (by rw [List.drop_zero, hnames]; exact denoteAll_strings _ names)

/-- The bindings that a template sees are those of the dictionary of its context. Looking through the
names leaves an iterator behind. -/
theorem run_bindings (h : m.object? c = some (.instance (contextObject html vars escaper)))
    (hvars : m.object? vars = some (.dict es)) {names : List String}
    (hnames : es.map (·.1) = names.map .str) : ∃ i, ∀ n, names.length + 2 ≤ n →
      (Context.bindings (operations n) (.ref c)).run m =
        .ok (gathered es names []) (m.push (.iterator i)) := by
  -- the names are gone through with an iterator of their own, behind which the values are looked up
  obtain ⟨vs, i, hvs, hdrain⟩ := (remaining_keys hvars hnames).run_drain (m.object?_push_fresh _)
    (Machine.index_lt hvars)
  obtain rfl := hvs.eq_strings
  rw [List.length_map] at hdrain
  refine ⟨i, fun n hn => ?_⟩
  obtain ⟨n, rfl⟩ := Nat.exists_eq_add_of_le' (Nat.le_trans (Nat.le_add_left 1 _) hn)
  have hitems : (Iterate.items (operations (n + 1)) (.view .keys vars)).run m =
      .ok (names.map .str) (m.push (.iterator i)) := by
    rw [run_items_keys hvars, EStateM.run_bind, hdrain _ hn, Machine.put_push_fresh]
    rfl
  have hpush {a : Address} {o : Object} (ha : m.object? a = some o) :
      (m.push (.iterator i)).object? a = some o :=
    (m.object?_push_of_lt a _ (Machine.index_lt ha)).trans ha
  rw [run_bindings_eq h, EStateM.run_bind, hitems]
  exact run_valuesUnder (hpush h) (hpush hvars) names [] n

end

/-! ## Names -/

/-- The keys of a dictionary are names. -/
def Entries.Named (es : Entries) (names : List String) : Prop :=
  es.map (·.1) = names.map .str

/-- A name has a value where it is among the keys. -/
theorem Entries.Named.named?_eq_none {es : Entries} {names : List String} (h : es.Named names)
    {name : String} : es.named? name = none ↔ name ∉ names := by
  rw [named?, find?, Option.map_eq_none_iff, List.find?_eq_none]
  constructor
  · intro hnone hmem
    obtain ⟨e, he, hkey⟩ : ∃ e ∈ es, e.1 = .str name := by
      have hmap : Value.str name ∈ es.map (·.1) := by
        rw [h]
        exact List.mem_map_of_mem hmem
      exact List.mem_map.1 hmap
    exact hnone e he (Value.same_str.2 hkey)
  · intro hnot e he hsame
    have hmap : e.1 ∈ names.map Value.str := by
      rw [← h]
      exact List.mem_map_of_mem he
    obtain ⟨name', hname', hkey⟩ := List.mem_map.1 hmap
    rw [Value.same_str.1 hsame] at hkey
    cases hkey
    exact hnot hname'

/-- Writing an entry under a name leaves the keys names. -/
theorem Entries.Named.insert {es : Entries} {names : List String} (h : es.Named names) (name : String)
    (v : Value) : ∃ names', (es.insert (.str name) v).Named names' := by
  induction es generalizing names with
  | nil => exact ⟨[name], rfl⟩
  | cons e es ih =>
      obtain ⟨key, w⟩ := e
      cases names with
      | nil => cases h
      | cons name' names =>
          obtain ⟨hkey, hrest⟩ := List.cons.inj h
          obtain ⟨names', hnames'⟩ := ih hrest
          rw [Entries.insert]
          split
          · exact ⟨name' :: names, h⟩
          · exact ⟨name' :: names', List.cons_eq_cons.2 ⟨hkey, hnames'⟩⟩

/-- Entries written one after the other. -/
def Entries.writeAll (es acc : Entries) : Entries :=
  es.foldl (fun acc e => acc.insert e.1 e.2) acc

/-- Writing entries under names leaves the keys names. -/
theorem Entries.Named.writeAll {es acc : Entries} {names names' : List String} (h : es.Named names)
    (hacc : acc.Named names') : ∃ names'', (es.writeAll acc).Named names'' := by
  induction es generalizing names acc names' with
  | nil => exact ⟨names', hacc⟩
  | cons e es ih =>
      cases names with
      | nil => cases h
      | cons name names =>
          obtain ⟨hkey, hrest⟩ := List.cons.inj h
          obtain ⟨key, v⟩ := e
          cases hkey
          obtain ⟨names'', hinsert⟩ := hacc.insert name v
          exact ih hrest hinsert

/-- The values that are gathered under all names of a dictionary are those of the dictionary. -/
theorem named?_gathered {es : Entries} {names : List String} (h : es.Named names) (name : String) :
    (gathered es names []).named? name = es.named? name := by
  have hgathered (ns : List String) (acc : Entries) : (gathered es ns acc).named? name =
      if name ∈ ns then some ((es.named? name).getD .none) else acc.named? name := by
    induction ns generalizing acc with
    | nil => rfl
    | cons n ns ih =>
        rw [gathered, List.foldl_cons]
        refine (ih _).trans ?_
        rw [Entries.named?_insert]
        by_cases hn : name = n
        · rw [hn, if_pos rfl, if_pos List.mem_cons_self, ite_self]
        · simp [hn]
  rw [hgathered]
  cases hvalue : es.named? name with
  | none => rw [if_neg (h.named?_eq_none.1 hvalue)]; rfl
  | some v =>
      have hmem : name ∈ names := Decidable.of_not_not fun hnot => by
        rw [h.named?_eq_none.2 hnot] at hvalue
        cases hvalue
      rw [if_pos hmem]
      rfl

/-- Going through entries under names with an action that gives each of them back. -/
theorem Entries.Named.run_mapM {m : Machine} {es : Entries} {names : List String} (h : es.Named names)
    {f : Value × Value → Run (Value × Value)}
    (hf : ∀ name v, (f (.str name, v)).run m = .ok (.str name, v) m) :
    (es.mapM f).run m = .ok es m := by
  induction es generalizing names with
  | nil => rfl
  | cons e es ih =>
      cases names with
      | nil => cases h
      | cons name names =>
          obtain ⟨hkey, hrest⟩ := List.cons.inj h
          obtain ⟨key, v⟩ := e
          cases hkey
          rw [List.mapM_cons]
          simp only [EStateM.run_bind, hf, EStateM.run_pure, ih hrest]

/-- A new context has a dictionary with the entries of a mapping. -/
theorem run_new {m : Machine} {es : Entries} {names : List String} (h : es.Named names) (html : Bool)
    (escaper : Option Value) (n : Nat) :
    (Context.new (operations (n + 1)) (contextKind html) es escaper).run m =
      .ok (.ref (m.push (.dict (es.writeAll []))).fresh)
        ((m.push (.dict (es.writeAll []))).push (.instance (contextObject html m.fresh escaper))) := by
  cases html with
  | false =>
      change (Context.new (operations (n + 1)) .text es escaper).run m = _
      simp only [Context.new]
      rw [EStateM.run_bind, h.run_mapM]
      · cases escaper <;> rfl
      · exact fun _ _ => rfl
  | true =>
      change (Context.new (operations (n + 1)) .html es escaper).run m = _
      simp only [Context.new]
      rw [EStateM.run_bind, h.run_mapM]
      · cases escaper <;> rfl
      · exact fun _ _ => rfl

end Stencil.Script
