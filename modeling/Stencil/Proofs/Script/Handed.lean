import Stencil.Proofs.Data.Merging
import Stencil.Proofs.Script.Contexts
import Stencil.Proofs.Script.Shown

/-!
# Mappings handed to contexts

The value of a data tree is made of new objects, and is the value of the tree as long as the machine only
gets further ones. A new context names the values of a mapping by the texts of their keys, whatever the
kinds of the keys, so it has under a name the value of the last key with that text
(`run_new_of_made`). An integer key with too many digits has no text, and then there is no context.
-/

namespace Stencil.Script

open Data (IsKey lastNamed?)

/-! ## Values of data trees -/

mutual

/-- A data tree always has a value. -/
theorem exists_run_ofData : (d : Data) → (m : Machine) → ∃ v m',
    (Value.ofData d).run m = .ok v m' ∧ m.Extends m'
  | .none, m => ⟨.none, m, by rw [Value.ofData, EStateM.run_pure], .refl m⟩
  | .bool b, m => ⟨.bool b, m, by rw [Value.ofData, EStateM.run_pure], .refl m⟩
  | .int i, m => ⟨.int i, m, by rw [Value.ofData, EStateM.run_pure], .refl m⟩
  | .float x, m => ⟨.float x, m, by rw [Value.ofData, EStateM.run_pure], .refl m⟩
  | .str s, m => ⟨.str s, m, by rw [Value.ofData, EStateM.run_pure], .refl m⟩
  | .callable, m => ⟨.native .plainText, m, by rw [Value.ofData, EStateM.run_pure], .refl m⟩
  | .other k p s, m => ⟨.foreign k p s, m, by rw [Value.ofData, EStateM.run_pure], .refl m⟩
  | .tuple items, m => by
      obtain ⟨vs, m', hrun, hext⟩ := exists_run_ofItems items m
      exact ⟨.tuple vs, m', by rw [Value.ofData, EStateM.run_bind, hrun]; rfl, hext⟩
  | .list items, m => by
      obtain ⟨vs, m', hrun, hext⟩ := exists_run_ofItems items m
      exact ⟨.ref m'.fresh, _, by rw [Value.ofData, EStateM.run_bind, hrun]; rfl, hext.trans (.push m' _)⟩
  | .dict entries, m => by
      obtain ⟨es, m', hrun, hext⟩ := exists_run_ofEntries entries m
      exact ⟨.ref m'.fresh, _, by rw [Value.ofData, EStateM.run_bind, hrun]; rfl, hext.trans (.push m' _)⟩

/-- The items of a list always have values. -/
theorem exists_run_ofItems : (ds : List Data) → (m : Machine) → ∃ vs m',
    (Value.ofItems ds).run m = .ok vs m' ∧ m.Extends m'
  | [], m => ⟨[], m, by rw [Value.ofItems, EStateM.run_pure], .refl m⟩
  | d :: ds, m => by
      obtain ⟨v, m', hrun, hext⟩ := exists_run_ofData d m
      obtain ⟨vs, m'', hrun', hext'⟩ := exists_run_ofItems ds m'
      refine ⟨v :: vs, m'', ?_, hext.trans hext'⟩
      rw [Value.ofItems, EStateM.run_bind, hrun]
      simp only [EStateM.run_bind, hrun', EStateM.run_pure]

/-- The entries of a mapping always have values. -/
theorem exists_run_ofEntries : (ds : List (Data × Data)) → (m : Machine) → ∃ es m',
    (Value.ofEntries ds).run m = .ok es m' ∧ m.Extends m'
  | [], m => ⟨[], m, by rw [Value.ofEntries, EStateM.run_pure], .refl m⟩
  | (k, d) :: ds, m => by
      obtain ⟨key, m₁, hkey, hext₁⟩ := exists_run_ofData k m
      obtain ⟨v, m₂, hrun, hext₂⟩ := exists_run_ofData d m₁
      obtain ⟨es, m₃, hrun', hext₃⟩ := exists_run_ofEntries ds m₂
      refine ⟨(key, v) :: es, m₃, ?_, (hext₁.trans hext₂).trans hext₃⟩
      rw [Value.ofEntries, EStateM.run_bind, hkey]
      simp only [EStateM.run_bind, hrun, hrun', EStateM.run_pure]

end

/-- Whether a value was made for a data tree, and the machine has only got further objects since. -/
def Made (m : Machine) (v : Value) (d : Data) : Prop :=
  ∃ m₀ m₁, (Value.ofData d).run m₀ = .ok v m₁ ∧ m₁.Extends m

/-- A value stays the one of its data tree. -/
theorem Made.extends {m m' : Machine} {v : Value} {d : Data} (h : Made m v d) (he : m.Extends m') :
    Made m' v d := by
  obtain ⟨m₀, m₁, hrun, hext⟩ := h
  exact ⟨m₀, m₁, hrun, hext.trans he⟩

/-- The value of a scalar. -/
def keyValue : Data → Value
  | .bool b => .bool b
  | .int i => .int i
  | .float x => .float x
  | .str s => .str s
  | .other k p s => .foreign k p s
  | _ => .none

/-- A scalar has its value without further objects. -/
theorem ofData_key {k : Data} (hk : k.IsKey) : Value.ofData k = pure (keyValue k) := by
  cases k with
  | none | bool _ | int _ | float _ | str _ | other _ _ _ => rw [Value.ofData]; rfl
  | list _ | tuple _ | dict _ | callable => cases hk

/-- A scalar is written as its text, unless it is an integer with too many digits. -/
theorem run_str_key {k : Data} (hk : k.IsKey) (n : Nat) (m : Machine) :
    ((operations (n + 2)).str (keyValue k)).run m = (unlessLong k.isShort k.text).run m := by
  cases k with
  | none | bool _ | float _ | str _ | other _ _ _ => rfl
  | int i =>
      change (Show.repr (operations n) (.int i)).run m = _
      rw [Show.repr, lift_decimal]
      rfl
  | list _ | tuple _ | dict _ | callable => cases hk

/-! ## Entries -/

/-- Whether entries were made for those of a mapping, with a function of the keys in place of the keys. -/
def MadeBy (key : Data → Value) (m : Machine) (es : Entries) (ds : List (Data × Data)) : Prop :=
  List.Forall₂ (fun e d => e.1 = key d.1 ∧ Made m e.2 d.2) es ds

/-- Entries stay those of their mapping. -/
theorem MadeBy.extends {key : Data → Value} {m m' : Machine} {es : Entries} {ds : List (Data × Data)}
    (h : MadeBy key m es ds) (he : m.Extends m') : MadeBy key m' es ds :=
  h.imp fun _ _ hed => ⟨hed.1, hed.2.extends he⟩

/-- Entries are made for those of a mapping. -/
theorem run_ofEntries_made (ds : List (Data × Data)) (h : ∀ d ∈ ds, d.1.IsKey) (m : Machine) :
    ∃ es m', (Value.ofEntries ds).run m = .ok es m' ∧ m.Extends m' ∧ MadeBy keyValue m' es ds := by
  induction ds generalizing m with
  | nil => exact ⟨[], m, by rw [Value.ofEntries, EStateM.run_pure], .refl m, .nil⟩
  | cons d ds ih =>
      obtain ⟨k, d⟩ := d
      obtain ⟨v, m₁, hrun, hext⟩ := exists_run_ofData d m
      obtain ⟨es, m₂, hrun', hext', hes⟩ := ih (fun d hd => h d (List.mem_cons_of_mem _ hd)) m₁
      refine ⟨(keyValue k, v) :: es, m₂, ?_, hext.trans hext', .cons ⟨rfl, m, m₁, hrun, hext'⟩ hes⟩
      rw [Value.ofEntries, ofData_key (h _ List.mem_cons_self)]
      simp only [EStateM.run_bind, EStateM.run_pure, hrun, hrun']

/-- The text of a key as a value. -/
def textValue (k : Data) : Value :=
  .str k.text

/-- The entries of a dictionary under the texts of their keys. -/
def named (ops : Ops) (es : Entries) : Run Entries :=
  es.mapM fun e => do return (.str (← ops.str e.1), e.2)

/-- Entries are named by the texts of their keys, unless one of them is an integer with too many digits. -/
theorem MadeBy.run_named {m : Machine} {es : Entries} {ds : List (Data × Data)}
    (h : MadeBy keyValue m es ds) (hds : ∀ d ∈ ds, d.1.IsKey) (n : Nat) :
    ∃ fs, MadeBy textValue m fs ds ∧ (named (operations (n + 2)) es).run m =
      (unlessLong (ds.all fun d => d.1.isShort) fs).run m := by
  induction h with
  | nil => exact ⟨[], .nil, rfl⟩
  | @cons e d es ds hed hrest ih =>
      obtain ⟨fs, hfs, hrun⟩ := ih fun d hd => hds d (List.mem_cons_of_mem _ hd)
      refine ⟨(textValue d.1, e.2) :: fs, .cons ⟨rfl, hed.2⟩ hfs, ?_⟩
      have hkey : (do return (.str (← (operations (n + 2)).str e.1), e.2) : Run (Value × Value)).run m =
          (unlessLong d.1.isShort (textValue d.1, e.2)).run m := by
        refine run_bind_pure_unlessLong (fun s => (Value.str s, e.2)) ?_
        rw [hed.1]
        exact run_str_key (hds d List.mem_cons_self) n m
      rw [named, List.mapM_cons, List.all_cons]
      exact run_bind_unlessLong hkey (run_bind_pure_unlessLong _ hrun)

/-- Entries under the texts of keys have names. -/
theorem MadeBy.exists_named {m : Machine} {es : Entries} {ds : List (Data × Data)}
    (h : MadeBy textValue m es ds) : es.Named (ds.map fun d => d.1.text) := by
  induction h with
  | nil => rfl
  | cons hed hrest ih => exact List.cons_eq_cons.2 ⟨hed.1, ih⟩

/-- Under a name is the value of the last key with that text. -/
theorem MadeBy.named?_writeAll {m : Machine} {es : Entries} {ds : List (Data × Data)}
    (h : MadeBy textValue m es ds) (acc : Entries) (name : String) :
    match lastNamed? name ds with
    | none => (es.writeAll acc).named? name = acc.named? name
    | some d => ∃ v, (es.writeAll acc).named? name = some v ∧ Made m v d := by
  induction h generalizing acc with
  | nil => rfl
  | @cons e d es ds hed hrest ih =>
      have hfirst : lastNamed? name (d :: ds) =
          (lastNamed? name ds).or (if d.1.text = name then some d.2 else none) := by
        rw [← List.singleton_append, Data.lastNamed?_append]
        congr 1
        by_cases htext : d.1.text = name <;> simp [lastNamed?, htext]
      have hinsert : (acc.insert e.1 e.2).named? name =
          if name = d.1.text then some e.2 else acc.named? name := by
        rw [hed.1]
        exact Entries.named?_insert acc _ _ _
      have hrest := ih (acc.insert e.1 e.2)
      rw [hfirst]
      change match (lastNamed? name ds).or _ with
        | none => (Entries.writeAll es (acc.insert e.1 e.2)).named? name = acc.named? name
        | some d => ∃ v, (Entries.writeAll es (acc.insert e.1 e.2)).named? name = some v ∧ Made m v d
      cases hlast : lastNamed? name ds with
      | some d' =>
          rw [hlast] at hrest
          exact hrest
      | none =>
          rw [hlast] at hrest
          dsimp only at hrest
          rw [Option.none_or, hrest, hinsert]
          by_cases htext : d.1.text = name
          · rw [if_pos htext, if_pos htext.symm]
            exact ⟨e.2, rfl, hed.2⟩
          · rw [if_neg htext, if_neg (Ne.symm htext)]

/-! ## New contexts -/

section

variable {ops : Ops} {m : Machine} {es fs : Entries} {c vars : Address} {html : Bool}
  {escaper : Option Value}

/-- A new context names its entries first. -/
theorem new_eq (ops : Ops) (html : Bool) (es : Entries) (escaper : Option Value) :
    Context.new ops (contextKind html) es escaper = (do
      let fs ← named ops es
      let vars ← Run.newDict (fs.writeAll [])
      Run.alloc (.instance ⟨.kind (.context (contextKind html)),
        ("_vars", vars) :: escaper.toList.map (("escaper", ·)), [], none⟩)) := by
  cases html <;> cases escaper <;> rfl

/-- A new context has a dictionary with the entries under their names. -/
theorem run_new_of_named (h : (named ops es).run m = .ok fs m) (html : Bool) (escaper : Option Value) :
    (Context.new ops (contextKind html) es escaper).run m =
      .ok (.ref (m.push (.dict (fs.writeAll []))).fresh)
        ((m.push (.dict (fs.writeAll []))).push (.instance (contextObject html m.fresh escaper))) := by
  rw [new_eq, EStateM.run_bind, h]
  rfl

/-- There is no new context where an entry has no name. -/
theorem run_new_of_error {stop : Stop} {m' : Machine} (h : (named ops es).run m = .error stop m')
    (html : Bool) (escaper : Option Value) :
    (Context.new ops (contextKind html) es escaper).run m = .error stop m' := by
  rw [new_eq, EStateM.run_bind, h]

/-- Whether a name is bound in a context. -/
theorem run_contains_context (h : m.object? c = some (.instance (contextObject html vars escaper)))
    (hvars : m.object? vars = some (.dict es)) (ops : Ops) (name : String) :
    (Item.contains ops (.ref c) (.str name)).run m = .ok (es.named? name).isSome m := by
  have hkey : (Item.checkKey (.str name)).run m = .ok () m := rfl
  have hbindings : Item.bindingsOf? (contextObject html vars escaper) = some vars := by
    cases html <;> rfl
  rw [Item.contains, EStateM.run_bind, Run.run_object?, h]
  dsimp only
  rw [hbindings]
  dsimp only
  rw [EStateM.run_bind, hkey]
  dsimp only
  rw [EStateM.run_bind, Run.run_entries hvars]
  rfl

/-- What a context gives under a name. -/
theorem run_invoke_get (h : m.object? c = some (.instance (contextObject html vars escaper)))
    (hvars : m.object? vars = some (.dict es)) (name : String) (n : Nat) :
    (Context.invoke (operations (n + 1)) (.ref c) "get" [.str name]).run m =
      .ok ((es.named? name).getD .none) m := by
  rw [Context.invoke, EStateM.run_bind, run_member_context h (by simp)]
  exact run_get_context h hvars name n

end

/-- Whether a context has the values of a mapping: a name is bound exactly if it is the text of a key, and its
value is that of the last such key. -/
def HoldsMapping (ops : Ops) (m : Machine) (c : Value) (ds : List (Data × Data)) : Prop :=
  ∀ name, (Item.contains ops c (.str name)).run m = .ok (lastNamed? name ds).isSome m ∧
    ∀ d, lastNamed? name ds = some d →
      ∃ v, (Context.invoke ops c "get" [.str name]).run m = .ok v m ∧ Made m v d

/-- A new context for a mapping has its values. If an integer key has too many digits, there is none. -/
theorem run_new_of_made {m : Machine} {es : Entries} {ds : List (Data × Data)}
    (h : MadeBy keyValue m es ds) (hds : ∀ d ∈ ds, d.1.IsKey) (html : Bool) (escaper : Option Value)
    (n : Nat) :
    if ds.all fun d => d.1.isShort then
      ∃ c m', (Context.new (operations (n + 2)) (contextKind html) es escaper).run m = .ok c m' ∧
        HoldsMapping (operations (n + 2)) m' c ds
    else ∃ e m', (Context.new (operations (n + 2)) (contextKind html) es escaper).run m =
      .error (.raised e) m' := by
  obtain ⟨fs, hfs, hrun⟩ := h.run_named hds n
  rw [run_unlessLong] at hrun
  split
  · next hshort =>
      rw [if_pos hshort] at hrun
      have hnew := run_new_of_named hrun html escaper
      have hext := (Machine.Extends.push m (.dict (fs.writeAll []))).trans
        (.push _ (.instance (contextObject html m.fresh escaper)))
      have hvars : ((m.push (.dict (fs.writeAll []))).push
          (.instance (contextObject html m.fresh escaper))).object? m.fresh =
            some (.dict (fs.writeAll [])) := by
        rw [Machine.object?_push_of_lt]
        · exact m.object?_push_fresh _
        · exact Machine.index_lt (m.object?_push_fresh _)
      refine ⟨_, _, hnew, fun name => ⟨?_, fun d hd => ?_⟩⟩
      · rw [run_contains_context (Machine.object?_push_fresh _ _) hvars]
        have hvalue := hfs.named?_writeAll [] name
        cases hlast : lastNamed? name ds with
        | none =>
            rw [hlast] at hvalue
            rw [hvalue]
            rfl
        | some d =>
            rw [hlast] at hvalue
            obtain ⟨v, hv, -⟩ := hvalue
            rw [hv]
            rfl
      · have hvalue := hfs.named?_writeAll [] name
        rw [hd] at hvalue
        obtain ⟨v, hv, hmade⟩ := hvalue
        refine ⟨v, ?_, hmade.extends hext⟩
        rw [run_invoke_get (Machine.object?_push_fresh _ _) hvars, hv]
        rfl
  · next hlong =>
      rw [if_neg hlong] at hrun
      exact ⟨_, _, run_new_of_error hrun html escaper⟩

end Stencil.Script
