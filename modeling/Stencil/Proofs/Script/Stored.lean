import Stencil.Script.Exchange
import Stencil.Proofs.Data.Json
import Stencil.Proofs.Script.Running

/-!
# Data on the machine

A value denotes a data tree when the objects that it refers to hold the tree. Objects are made before
the objects that hold them, so the objects of a value are at addresses below a bound, and those that a
list or a mapping holds are at addresses below its own. A computation that leaves the objects below the
bound alone leaves the tree that a value denotes as it is.
-/

namespace Stencil.Script

mutual

/-- Whether a value denotes a data tree, with its objects at addresses below a bound. -/
inductive Denotes (m : Machine) : Nat → Value → Data → Prop where
  | none {k : Nat} : Denotes m k .none .none
  | bool {k : Nat} (b : Bool) : Denotes m k (.bool b) (.bool b)
  | int {k : Nat} (i : Int) : Denotes m k (.int i) (.int i)
  | float {k : Nat} (x : Float) : Denotes m k (.float x) (.float x)
  | str {k : Nat} (s : String) : Denotes m k (.str s) (.str s)
  | list {k : Nat} {a : Address} {xs : Array Value} {items : List Data} (hlt : a.index < k)
      (hobject : m.object? a = some (.list xs)) (hitems : DenoteAll m a.index xs.toList items) :
      Denotes m k (.ref a) (.list items)
  | dict {k : Nat} {a : Address} {es : Entries} {entries : List (Data × Data)} (hlt : a.index < k)
      (hobject : m.object? a = some (.dict es)) (hentries : DenoteEntries m a.index es entries) :
      Denotes m k (.ref a) (.dict entries)

/-- Whether values denote data trees. -/
inductive DenoteAll (m : Machine) : Nat → List Value → List Data → Prop where
  | nil {k : Nat} : DenoteAll m k [] []
  | cons {k : Nat} {v : Value} {d : Data} {vs : List Value} {ds : List Data} (hd : Denotes m k v d)
      (hrest : DenoteAll m k vs ds) : DenoteAll m k (v :: vs) (d :: ds)

/-- Whether the entries of a dictionary denote those of a mapping. -/
inductive DenoteEntries (m : Machine) : Nat → Entries → List (Data × Data) → Prop where
  | nil {k : Nat} : DenoteEntries m k [] []
  | cons {k : Nat} {name : String} {v : Value} {d : Data} {es : Entries} {ds : List (Data × Data)}
      (hd : Denotes m k v d) (hrest : DenoteEntries m k es ds) :
      DenoteEntries m k ((.str name, v) :: es) ((.str name, d) :: ds)

end

section

variable {m m' : Machine}

/-! ## Other machines -/

mutual

/-- What a value denotes depends only on the objects below the bound. -/
theorem Denotes.frame : {d : Data} → {k : Nat} → {v : Value} → Denotes m k v d →
    (∀ a : Address, a.index < k → m'.object? a = m.object? a) → Denotes m' k v d
  | .none, _, _, .none, _ => .none
  | .bool _, _, _, .bool b, _ => .bool b
  | .int _, _, _, .int i, _ => .int i
  | .float _, _, _, .float x, _ => .float x
  | .str _, _, _, .str s, _ => .str s
  | .list _, _, _, .list hlt hobject hitems, h =>
    .list hlt ((h _ hlt).trans hobject) (hitems.frame fun a ha => h a (Nat.lt_trans ha hlt))
  | .dict _, _, _, .dict hlt hobject hentries, h =>
    .dict hlt ((h _ hlt).trans hobject) (hentries.frame fun a ha => h a (Nat.lt_trans ha hlt))

/-- What values denote depends only on the objects below the bound. -/
theorem DenoteAll.frame : {ds : List Data} → {k : Nat} → {vs : List Value} → DenoteAll m k vs ds →
    (∀ a : Address, a.index < k → m'.object? a = m.object? a) → DenoteAll m' k vs ds
  | [], _, _, .nil, _ => .nil
  | _ :: _, _, _, .cons hd hrest, h => .cons (hd.frame h) (hrest.frame h)

/-- What entries denote depends only on the objects below the bound. -/
theorem DenoteEntries.frame : {ds : List (Data × Data)} → {k : Nat} → {es : Entries} →
    DenoteEntries m k es ds → (∀ a : Address, a.index < k → m'.object? a = m.object? a) →
    DenoteEntries m' k es ds
  | [], _, _, .nil, _ => .nil
  | _ :: _, _, _, .cons hd hrest, h => .cons (hd.frame h) (hrest.frame h)

end

/-- A greater bound. -/
theorem Denotes.mono {k k' : Nat} {v : Value} {d : Data} (h : Denotes m k v d) (hle : k ≤ k') :
    Denotes m k' v d := by
  cases h with
  | none => exact .none
  | bool b => exact .bool b
  | int i => exact .int i
  | float x => exact .float x
  | str s => exact .str s
  | list hlt hobject hitems => exact .list (Nat.lt_of_lt_of_le hlt hle) hobject hitems
  | dict hlt hobject hentries => exact .dict (Nat.lt_of_lt_of_le hlt hle) hobject hentries

/-- A greater bound. -/
theorem DenoteAll.mono {k k' : Nat} {vs : List Value} {ds : List Data} (h : DenoteAll m k vs ds)
    (hle : k ≤ k') : DenoteAll m k' vs ds := by
  induction ds generalizing vs with
  | nil =>
      cases h
      exact .nil
  | cons d ds ih =>
      cases h with
      | cons hd hrest => exact .cons (hd.mono hle) (ih hrest)

/-- A greater bound. -/
theorem DenoteEntries.mono {k k' : Nat} {es : Entries} {ds : List (Data × Data)}
    (h : DenoteEntries m k es ds) (hle : k ≤ k') : DenoteEntries m k' es ds := by
  induction ds generalizing es with
  | nil =>
      cases h
      exact .nil
  | cons d ds ih =>
      cases h with
      | cons hd hrest => exact .cons (hd.mono hle) (ih hrest)

/-! ## Making values -/

/-- Whether a machine has got further objects. -/
def Machine.Extends (m m' : Machine) : Prop :=
  ∃ os : Array Object, m' = { m with heap := m.heap ++ os }

/-- A machine without further objects. -/
theorem Machine.Extends.refl (m : Machine) : m.Extends m :=
  ⟨#[], by rw [Array.append_empty]⟩

/-- Further objects in two parts. -/
theorem Machine.Extends.trans {m m' m'' : Machine} (h : m.Extends m') (h' : m'.Extends m'') :
    m.Extends m'' := by
  obtain ⟨os, rfl⟩ := h
  obtain ⟨os', rfl⟩ := h'
  exact ⟨os ++ os', by rw [Array.append_assoc]⟩

/-- One further object. -/
theorem Machine.Extends.push (m : Machine) (o : Object) : m.Extends (m.push o) :=
  ⟨#[o], by rw [Machine.push, Array.push_eq_append]⟩

/-- Further objects leave the others as they are. -/
theorem Machine.Extends.object? (h : m.Extends m') {a : Address} (ha : a.index < m.heap.size) :
    m'.object? a = m.object? a := by
  obtain ⟨os, rfl⟩ := h
  exact Array.getElem?_append_left ha

/-- There are at least as many objects. -/
theorem Machine.Extends.size_le (h : m.Extends m') : m.heap.size ≤ m'.heap.size := by
  obtain ⟨os, rfl⟩ := h
  simp

/-- A value goes on denoting its data tree. -/
theorem Denotes.extends {v : Value} {d : Data} (h : Denotes m m.heap.size v d) (he : m.Extends m') :
    Denotes m' m'.heap.size v d :=
  (h.frame fun _ => he.object?).mono he.size_le

mutual

/-- The value that is made for a data tree denotes the tree. -/
theorem run_ofData : (d : Data) → d.isJson → (m : Machine) → ∃ v m',
    (Value.ofData d).run m = .ok v m' ∧ m.Extends m' ∧ Denotes m' m'.heap.size v d
  | .none, _, m => ⟨.none, m, by rw [Value.ofData, EStateM.run_pure], .refl m, .none⟩
  | .bool b, _, m => ⟨.bool b, m, by rw [Value.ofData, EStateM.run_pure], .refl m, .bool b⟩
  | .int i, _, m => ⟨.int i, m, by rw [Value.ofData, EStateM.run_pure], .refl m, .int i⟩
  | .float x, _, m => ⟨.float x, m, by rw [Value.ofData, EStateM.run_pure], .refl m, .float x⟩
  | .str s, _, m => ⟨.str s, m, by rw [Value.ofData, EStateM.run_pure], .refl m, .str s⟩
  | .list items, h, m => by
      rw [Data.isJson] at h
      obtain ⟨vs, m', hrun, hext, hall⟩ := run_ofItems items h m
      have hpush := Machine.Extends.push m' (.list vs.toArray)
      have hall' : DenoteAll (m'.push (.list vs.toArray)) m'.heap.size vs.toArray.toList items :=
        hall.frame fun _ => hpush.object?
      refine ⟨.ref m'.fresh, m'.push (.list vs.toArray), ?_, hext.trans hpush,
        .list ?_ (m'.object?_push_fresh _) hall'⟩
      · rw [Value.ofData, EStateM.run_bind, hrun]
        rfl
      · simp [Machine.push, Machine.fresh]
  | .dict entries, h, m => by
      rw [Data.isJson] at h
      obtain ⟨es, m', hrun, hext, hall⟩ := run_ofEntries entries h m
      have hpush := Machine.Extends.push m' (.dict es)
      have hall' : DenoteEntries (m'.push (.dict es)) m'.heap.size es entries :=
        hall.frame fun _ => hpush.object?
      refine ⟨.ref m'.fresh, m'.push (.dict es), ?_, hext.trans hpush,
        .dict ?_ (m'.object?_push_fresh _) hall'⟩
      · rw [Value.ofData, EStateM.run_bind, hrun]
        rfl
      · simp [Machine.push, Machine.fresh]
  | .tuple _, h, _ => absurd h (by rw [Data.isJson]; exact Bool.false_ne_true)
  | .callable, h, _ => absurd h (by rw [Data.isJson]; exact Bool.false_ne_true)
  | .other _ _ _, h, _ => absurd h (by rw [Data.isJson]; exact Bool.false_ne_true)

/-- The values that are made for data trees denote the trees. -/
theorem run_ofItems : (ds : List Data) → Data.areJson ds → (m : Machine) → ∃ vs m',
    (Value.ofItems ds).run m = .ok vs m' ∧ m.Extends m' ∧ DenoteAll m' m'.heap.size vs ds
  | [], _, m => ⟨[], m, by rw [Value.ofItems, EStateM.run_pure], .refl m, .nil⟩
  | d :: ds, h, m => by
      rw [Data.areJson, Bool.and_eq_true] at h
      obtain ⟨v, m', hrun, hext, hd⟩ := run_ofData d h.1 m
      obtain ⟨vs, m'', hrun', hext', hds⟩ := run_ofItems ds h.2 m'
      refine ⟨v :: vs, m'', ?_, hext.trans hext', .cons (hd.extends hext') hds⟩
      rw [Value.ofItems, EStateM.run_bind, hrun]
      simp only [EStateM.run_bind, hrun', EStateM.run_pure]

/-- The entries that are made for those of a mapping denote them. -/
theorem run_ofEntries : (ds : List (Data × Data)) → Data.areJsonEntries ds → (m : Machine) → ∃ es m',
    (Value.ofEntries ds).run m = .ok es m' ∧ m.Extends m' ∧ DenoteEntries m' m'.heap.size es ds
  | [], _, m => ⟨[], m, by rw [Value.ofEntries, EStateM.run_pure], .refl m, .nil⟩
  | (.str name, d) :: ds, h, m => by
      rw [Data.areJsonEntries, Bool.and_eq_true] at h
      obtain ⟨v, m', hrun, hext, hd⟩ := run_ofData d h.1 m
      obtain ⟨es, m'', hrun', hext', hds⟩ := run_ofEntries ds h.2 m'
      refine ⟨(.str name, v) :: es, m'', ?_, hext.trans hext', .cons (hd.extends hext') hds⟩
      rw [Value.ofEntries, Value.ofData]
      simp only [EStateM.run_bind, EStateM.run_pure, hrun, hrun']

end

/-! ## What values tell -/

mutual

/-- A data tree nests at most as deep as there are addresses below the bound. -/
theorem Denotes.height_le : {d : Data} → {k : Nat} → {v : Value} → Denotes m k v d → d.height ≤ k
  | .none, _, _, .none | .bool _, _, _, .bool _ | .int _, _, _, .int _ | .float _, _, _, .float _
  | .str _, _, _, .str _ => Nat.zero_le _
  | .list _, _, _, .list hlt _ hitems => Nat.lt_of_le_of_lt hitems.height_le hlt
  | .dict _, _, _, .dict hlt _ hentries => Nat.lt_of_le_of_lt hentries.height_le hlt

/-- Data trees nest at most as deep as there are addresses below the bound. -/
theorem DenoteAll.height_le : {ds : List Data} → {k : Nat} → {vs : List Value} →
    DenoteAll m k vs ds → Data.heightAll ds ≤ k
  | [], _, _, .nil => Nat.zero_le _
  | _ :: _, _, _, .cons hd hrest => Nat.max_le.2 ⟨hd.height_le, hrest.height_le⟩

/-- Entries nest at most as deep as there are addresses below the bound. -/
theorem DenoteEntries.height_le : {ds : List (Data × Data)} → {k : Nat} → {es : Entries} →
    DenoteEntries m k es ds → Data.heightEntries ds ≤ k
  | [], _, _, .nil => Nat.zero_le _
  | (.str _, _) :: _, _, _, .cons hd hrest =>
    Nat.max_le.2 ⟨Nat.max_le.2 ⟨Nat.zero_le _, hd.height_le⟩, hrest.height_le⟩

end

/-- Values that denote strings are the strings. -/
theorem DenoteAll.eq_strings {k : Nat} {vs : List Value} {names : List String}
    (h : DenoteAll m k vs (names.map .str)) : vs = names.map .str := by
  induction names generalizing vs with
  | nil =>
      cases h
      rfl
  | cons name names ih =>
      cases h with
      | cons hd hrest =>
          cases hd
          rw [ih hrest, List.map_cons]

/-- Strings denote themselves. -/
theorem denoteAll_strings (k : Nat) (names : List String) :
    DenoteAll m k (names.map .str) (names.map .str) := by
  induction names with
  | nil => exact .nil
  | cons name names ih => exact .cons (.str name) ih

/-- Lists are empty together. -/
theorem DenoteAll.isEmpty_eq {k : Nat} {vs : List Value} {ds : List Data} (h : DenoteAll m k vs ds) :
    vs.isEmpty = ds.isEmpty := by
  cases h <;> rfl

/-- Mappings are empty together. -/
theorem DenoteEntries.isEmpty_eq {k : Nat} {es : Entries} {ds : List (Data × Data)}
    (h : DenoteEntries m k es ds) : es.isEmpty = ds.isEmpty := by
  cases h <;> rfl

/-- A value counts as true when its data tree does. -/
theorem Denotes.run_truthy {k : Nat} {v : Value} {d : Data} (h : Denotes m k v d) (ops : Ops) :
    (ops.truthy v).run m = .ok d.isTruthy m := by
  cases h with
  | none | bool b | int i | float x | str s => rfl
  | @list _ a xs items hlt hobject hitems =>
      have hempty : xs.isEmpty = items.isEmpty := by
        rw [← Array.isEmpty_toList, hitems.isEmpty_eq]
      simp [Ops.truthy, hobject, Data.isTruthy, hempty]
  | @dict _ a es entries hlt hobject hentries =>
      simp [Ops.truthy, hobject, Data.isTruthy, hentries.isEmpty_eq]

/-- The kind of a value has the name of the kind of its data tree. -/
theorem Denotes.run_kindName {k : Nat} {v : Value} {d : Data} (h : Denotes m k v d) :
    (Run.kindName v).run m = .ok d.kind m := by
  cases h with
  | none | bool b | int i | float x | str s => rfl
  | list hlt hobject hitems =>
      simp [Run.kindName, Run.classOf, Run.nameOf, hobject, Data.kind, Kind.name]
  | dict hlt hobject hentries =>
      simp [Run.kindName, Run.classOf, Run.nameOf, hobject, Data.kind, Kind.name]

end

end Stencil.Script
