import Stencil.Script.Interpreter
import Stencil.Proofs.Script.Stored
import Stencil.Proofs.Script.Running

/-!
# Loops over data on the machine

An iterator over a value that denotes a data tree gives values that denote the items of the tree, one
after the other, as long as the objects of the value stay as they are. An iterator over a dictionary
gives its entries as the view shows them, as long as the dictionary stays as it is (`run_drained`).
-/

namespace Stencil.Script

/-- Whether what an iterator has left to give denotes data trees, with objects below a bound. -/
inductive Remaining (m : Machine) (k : Nat) : Iterator → List Data → Prop where
  | items {kind : Kind} {vs : List Value} {ds : List Data} (h : DenoteAll m k vs ds) :
      Remaining m k (.items kind vs) ds
  | listFrom {a : Address} {xs : Array Value} {next : Nat} {ds : List Data} (hlt : a.index < k)
      (hobject : m.object? a = some (.list xs)) (h : DenoteAll m k (xs.toList.drop next) ds) :
      Remaining m k (.listFrom a next) ds
  | keys {a : Address} {es : Entries} {next : Nat} {ds : List Data} (hlt : a.index < k)
      (hobject : m.object? a = some (.dict es))
      (h : DenoteAll m k ((es.drop next).map (·.1)) ds) :
      Remaining m k (.entries .keys a next es.length) ds

section

variable {m m' : Machine} {k : Nat}

/-- What an iterator has left depends only on the objects below the bound. -/
theorem Remaining.frame {i : Iterator} {ds : List Data} (h : Remaining m k i ds)
    (hframe : ∀ a : Address, a.index < k → m'.object? a = m.object? a) : Remaining m' k i ds := by
  cases h with
  | items h => exact .items (h.frame hframe)
  | listFrom hlt hobject h =>
      exact .listFrom hlt ((hframe _ hlt).trans hobject) (h.frame hframe)
  | keys hlt hobject h => exact .keys hlt ((hframe _ hlt).trans hobject) (h.frame hframe)

/-- The characters of a string denote its items. -/
theorem denoteAll_characters (cs : List Char) :
    DenoteAll m k (cs.map fun c => .str c.toString) (cs.map fun c => .str c.toString) := by
  induction cs with
  | nil => exact .nil
  | cons c rest ih => exact .cons (.str _) ih

/-- The keys of a dictionary denote those of a mapping. -/
theorem DenoteEntries.keys {es : Entries} {ds : List (Data × Data)} (h : DenoteEntries m k es ds) :
    DenoteAll m k (es.map (·.1)) (ds.map (·.1)) := by
  induction ds generalizing es with
  | nil =>
      cases h
      exact .nil
  | cons d ds ih =>
      cases h with
      | cons hd hrest => exact .cons (.str _) (ih hrest)

/-- Starting a loop over a value makes an iterator over the items of its data tree. -/
theorem Denotes.run_start {v : Value} {d : Data} {ds : List Data} (h : Denotes m k v d)
    (hitems : d.items? = some ds) : ∃ i,
    (∀ ops, (Iterate.start ops v).run m = .ok (.ref m.fresh) (m.push (.iterator i))) ∧
      Remaining m k i ds := by
  cases h with
  | none | bool b | int i | float x => cases hitems
  | str s =>
      cases hitems
      exact ⟨_, fun _ => rfl, .items (denoteAll_characters s.toList)⟩
  | @list _ a xs items hlt hobject hall =>
      cases hitems
      refine ⟨.listFrom a 0, fun ops => ?_, .listFrom hlt hobject (hall.mono (Nat.le_of_lt hlt))⟩
      simp [Iterate.start, Iterate.new, hobject]
  | @dict _ a es entries hlt hobject hall =>
      cases hitems
      refine ⟨.entries .keys a 0 es.length, fun ops => ?_,
        .keys hlt hobject (hall.mono (Nat.le_of_lt hlt)).keys⟩
      simp [Iterate.start, Iterate.overEntries, Iterate.new, hobject, Run.run_entries hobject]

/-- Starting a loop over a value whose data tree has no items fails. -/
theorem Denotes.run_start_error {v : Value} {d : Data} (h : Denotes m k v d)
    (hitems : d.items? = Option.none) (ops : Ops) :
    (Iterate.start ops v).run m = .error (.raised m.fresh)
      (m.push (Run.exceptionObject .typeError s!"'{d.kind}' object is not iterable" m.line)) := by
  have hkind := h.run_kindName
  cases h with
  | none | bool b | int i | float x =>
      simp only [Iterate.start, Iterate.notIterable, EStateM.run_bind, hkind]
      rfl
  | str s | list _ _ _ | dict _ _ _ => cases hitems

/-- Values that denote something start with a value that denotes the first of it. -/
theorem DenoteAll.exists_cons {vs : List Value} {d : Data} {ds : List Data}
    (h : DenoteAll m k vs (d :: ds)) : ∃ v vs', vs = v :: vs' ∧ Denotes m k v d ∧ DenoteAll m k vs' ds := by
  cases h with
  | cons hd hrest => exact ⟨_, _, rfl, hd, hrest⟩

/-- Values that denote nothing are none. -/
theorem DenoteAll.eq_nil {vs : List Value} (h : DenoteAll m k vs []) : vs = [] := by
  cases h
  rfl

/-- An iterator gives a value for the first of its items. -/
theorem Remaining.run_advance {i : Iterator} {d : Data} {ds : List Data} {a : Address}
    (h : Remaining m k i (d :: ds)) (hobject : m.object? a = some (.iterator i)) : ∃ v i',
    (∀ ops sent, (Iterate.advance ops (.ref a) sent).run m =
      .ok (.item v) (m.put a (.iterator i'))) ∧ Denotes m k v d ∧ Remaining m k i' ds := by
  cases h with
  | @items kind vs _ hall =>
      cases hall with
      | @cons _ v _ vs _ hd hrest =>
          refine ⟨v, .items kind vs, fun ops sent => ?_, hd, .items hrest⟩
          simp only [Iterate.advance, Iterate.advanceIterator, EStateM.run_bind, Run.run_object?,
            hobject, Run.run_store, EStateM.run_pure]
  | @listFrom list xs next _ hlt hlist hall =>
      obtain ⟨v, vs, hdrop, hd, hrest⟩ := hall.exists_cons
      have hxs : xs[next]? = some v := by
        rw [← Array.getElem?_toList, ← List.head?_drop, hdrop, List.head?_cons]
      have hnext : xs.toList.drop (next + 1) = vs := by
        rw [← List.tail_drop, hdrop, List.tail_cons]
      refine ⟨v, .listFrom list (next + 1), fun ops sent => ?_, hd, .listFrom hlt hlist (hnext.symm ▸ hrest)⟩
      simp only [Iterate.advance, Iterate.advanceIterator, EStateM.run_bind, Run.run_object?,
        hobject, Run.run_items hlist, hxs, Run.run_store, EStateM.run_pure]
  | @keys dict es next _ hlt hdict hall =>
      obtain ⟨v, vs, hdrop, hd, hrest⟩ := hall.exists_cons
      obtain ⟨e, rest, hes, rfl, rfl⟩ := List.map_eq_cons_iff.1 hdrop
      have hget : es[next]? = some e := by
        rw [← List.head?_drop, hes, List.head?_cons]
      have hnext : es.drop (next + 1) = rest := by
        rw [← List.tail_drop, hes, List.tail_cons]
      refine ⟨e.1, .entries .keys dict (next + 1) es.length, fun ops sent => ?_, hd,
        .keys hlt hdict (hnext.symm ▸ hrest)⟩
      simp only [Iterate.advance, Iterate.advanceIterator, EStateM.run_bind, Run.run_object?,
        hobject, Run.run_entries hdict, ne_eq, not_true, if_false, hget, Run.run_store,
        EStateM.run_pure, Iterate.shown]

/-- An iterator without items left comes to its end. -/
theorem Remaining.run_advance_done {i : Iterator} {a : Address}
    (h : Remaining m k i []) (hobject : m.object? a = some (.iterator i)) : ∃ i', ∀ ops sent,
    (Iterate.advance ops (.ref a) sent).run m = .ok (.done .none) (m.put a (.iterator i')) := by
  cases h with
  | @items kind vs _ hall =>
      cases hall with
      | nil =>
          refine ⟨.items kind [], fun ops sent => ?_⟩
          simp only [Iterate.advance, Iterate.advanceIterator, EStateM.run_bind, Run.run_object?,
            hobject, EStateM.run_pure, Machine.put_self hobject]
  | @listFrom list xs next _ hlt hlist hall =>
      have hxs : xs[next]? = none := by
        rw [← Array.getElem?_toList]
        exact List.getElem?_eq_none (List.drop_eq_nil_iff.1 hall.eq_nil)
      refine ⟨.items .listIterator [], fun ops sent => ?_⟩
      simp only [Iterate.advance, Iterate.advanceIterator, EStateM.run_bind, Run.run_object?,
        hobject, Run.run_items hlist, hxs, Run.run_store, EStateM.run_pure]
  | @keys dict es next _ hlt hdict hall =>
      have hes : es[next]? = none :=
        List.getElem?_eq_none (List.drop_eq_nil_iff.1 (List.map_eq_nil_iff.1 hall.eq_nil))
      refine ⟨.items .keyIterator [], fun ops sent => ?_⟩
      simp only [Iterate.advance, Iterate.advanceIterator, EStateM.run_bind, Run.run_object?,
        hobject, Run.run_entries hdict, ne_eq, not_true, if_false, hes, Run.run_store,
        EStateM.run_pure]

/-- Going through an iterator gives values for all of its items. -/
theorem Remaining.run_foldItems {i : Iterator} {ds : List Data} {a : Address}
    (h : Remaining m k i ds) (hobject : m.object? a = some (.iterator i)) (hk : k ≤ a.index) :
    ∃ vs i', DenoteAll m k vs ds ∧ ∀ n fuel acc, ds.length < fuel →
      (Ops.foldItems.go (operations (n + 1)) (.ref a) (fun acc v => return acc.push v) fuel acc).run m =
        .ok (acc ++ vs.toArray) (m.put a (.iterator i')) := by
  have hadvance (n : Nat) : (operations (n + 1)).advance = Iterate.advance (operations n) := rfl
  induction ds generalizing m i with
  | nil =>
      obtain ⟨i', hdone⟩ := h.run_advance_done hobject
      refine ⟨[], i', .nil, fun n fuel acc hfuel => ?_⟩
      obtain ⟨fuel, rfl⟩ := Nat.exists_eq_add_of_le' (show 1 ≤ fuel from hfuel)
      rw [Ops.foldItems.go, EStateM.run_bind, hadvance, hdone, Array.append_empty]
      rfl
  | cons d ds ih =>
      obtain ⟨v, i₁, hitem, hd, hrest⟩ := h.run_advance hobject
      have hframe (b : Address) (hb : b.index < k) :
          (m.put a (.iterator i₁)).object? b = m.object? b := by
        refine Machine.object?_put_of_ne _ _ _ _ ?_
        rintro rfl
        exact Nat.not_lt_of_le hk hb
      obtain ⟨vs, i', hvs, hgo⟩ := ih (hrest.frame hframe) (Machine.object?_put_self hobject _)
      refine ⟨v :: vs, i', .cons hd (hvs.frame fun b hb => (hframe b hb).symm), fun n fuel acc hfuel => ?_⟩
      obtain ⟨fuel, rfl⟩ := Nat.exists_eq_add_of_le' (show 1 ≤ fuel by omega)
      rw [List.length_cons] at hfuel
      rw [Ops.foldItems.go, EStateM.run_bind, hadvance, hitem]
      dsimp only
      rw [EStateM.run_bind, EStateM.run_pure]
      dsimp only
      rw [hgo n fuel (acc.push v) (by omega), Machine.put_put]
      simp

/-- The items that an iterator still gives. -/
theorem Remaining.run_drain {i : Iterator} {ds : List Data} {a : Address}
    (h : Remaining m k i ds) (hobject : m.object? a = some (.iterator i)) (hk : k ≤ a.index) :
    ∃ vs i', DenoteAll m k vs ds ∧ ∀ n, ds.length + 2 ≤ n →
      ((operations n).drain (.ref a)).run m = .ok vs.toArray (m.put a (.iterator i')) := by
  obtain ⟨vs, i', hvs, hgo⟩ := h.run_foldItems hobject hk
  refine ⟨vs, i', hvs, fun n hn => ?_⟩
  obtain ⟨n, rfl⟩ := Nat.exists_eq_add_of_le' (Nat.le_trans (Nat.le_add_left 1 _) hn)
  have hdrain := hgo n n #[] (by omega)
  rw [Array.empty_append] at hdrain
  exact hdrain

end

/-! ## Going through dictionaries -/

section

variable {m : Machine} {a d : Address} {es : Entries} {what : View} {next : Nat}

/-- An iterator over a dictionary gives the next entry. -/
theorem run_advance_entry (hdict : m.object? d = some (.dict es))
    (hobject : m.object? a = some (.iterator (.entries what d next es.length))) {e : Value × Value}
    (hget : es[next]? = some e) (ops : Ops) (sent : Value) :
    (Iterate.advance ops (.ref a) sent).run m =
      .ok (.item (Iterate.shown what e)) (m.put a (.iterator (.entries what d (next + 1) es.length))) := by
  simp only [Iterate.advance, Iterate.advanceIterator, EStateM.run_bind, Run.run_object?, hobject,
    Run.run_entries hdict, ne_eq, not_true, if_false, hget, Run.run_store, EStateM.run_pure]

/-- An iterator over a dictionary comes to its end. -/
theorem run_advance_end (hdict : m.object? d = some (.dict es))
    (hobject : m.object? a = some (.iterator (.entries what d next es.length)))
    (hget : es[next]? = none) : ∃ i, ∀ ops sent,
    (Iterate.advance ops (.ref a) sent).run m = .ok (.done .none) (m.put a (.iterator i)) := by
  refine ⟨.items .keyIterator [], fun ops sent => ?_⟩
  simp only [Iterate.advance, Iterate.advanceIterator, EStateM.run_bind, Run.run_object?, hobject,
    Run.run_entries hdict, ne_eq, not_true, if_false, hget, Run.run_store, EStateM.run_pure]

/-- Going through what is left of a dictionary. -/
theorem run_foldItems_entries (hne : a ≠ d) {left : Entries} (hdict : m.object? d = some (.dict es))
    (hobject : m.object? a = some (.iterator (.entries what d next es.length)))
    (hleft : es.drop next = left) : ∃ i, ∀ n fuel acc, left.length < fuel →
      (Ops.foldItems.go (operations (n + 1)) (.ref a) (fun acc v => return acc.push v) fuel acc).run m =
        .ok (acc ++ (left.map (Iterate.shown what)).toArray) (m.put a (.iterator i)) := by
  have hadvance (n : Nat) : (operations (n + 1)).advance = Iterate.advance (operations n) := rfl
  induction left generalizing m next with
  | nil =>
      have hget : es[next]? = none := List.getElem?_eq_none (List.drop_eq_nil_iff.1 hleft)
      obtain ⟨i, hend⟩ := run_advance_end hdict hobject hget
      refine ⟨i, fun n fuel acc hfuel => ?_⟩
      obtain ⟨fuel, rfl⟩ := Nat.exists_eq_add_of_le' (show 1 ≤ fuel from hfuel)
      rw [Ops.foldItems.go, EStateM.run_bind, hadvance, hend, List.map_nil, Array.append_empty]
      rfl
  | cons e left ih =>
      have hget : es[next]? = some e := by
        rw [← List.head?_drop, hleft, List.head?_cons]
      have hrest : es.drop (next + 1) = left := by
        rw [← List.tail_drop, hleft, List.tail_cons]
      -- the iterator is another object than the dictionary, which stays as it is
      obtain ⟨i, hgo⟩ := ih ((m.object?_put_of_ne a d _ hne).trans hdict)
        (Machine.object?_put_self hobject _) hrest
      refine ⟨i, fun n fuel acc hfuel => ?_⟩
      obtain ⟨fuel, rfl⟩ := Nat.exists_eq_add_of_le' (show 1 ≤ fuel by omega)
      rw [List.length_cons] at hfuel
      rw [Ops.foldItems.go, EStateM.run_bind, hadvance, run_advance_entry hdict hobject hget]
      dsimp only
      rw [EStateM.run_bind, EStateM.run_pure]
      dsimp only
      rw [hgo n fuel _ (by omega), Machine.put_put]
      simp

/-- Goes through a dictionary by a view. -/
def drained (ops : Ops) (what : View) (d : Address) : Run (List Value) := do
  return (← ops.drain (← Iterate.overEntries what d)).toList

/-- Going through a dictionary gives its entries as the view shows them, and leaves an iterator behind. -/
theorem run_drained (hdict : m.object? d = some (.dict es)) (what : View) :
    ∃ i, ∀ n, es.length + 2 ≤ n → (drained (operations n) what d).run m =
      .ok (es.map (Iterate.shown what)) (m.push (.iterator i)) := by
  have hstart : (Iterate.overEntries what d).run m =
      .ok (.ref m.fresh) (m.push (.iterator (.entries what d 0 es.length))) := by
    rw [Iterate.overEntries, EStateM.run_bind, Run.run_entries hdict]
    rfl
  have hlt := Machine.index_lt hdict
  obtain ⟨i, hgo⟩ := run_foldItems_entries
    (fun heq : m.fresh = d => Nat.ne_of_gt hlt (congrArg Address.index heq))
    ((m.object?_push_of_lt d _ hlt).trans hdict) (m.object?_push_fresh _) List.drop_zero
  refine ⟨i, fun n hn => ?_⟩
  obtain ⟨n, rfl⟩ := Nat.exists_eq_add_of_le' (Nat.le_trans (Nat.le_add_left 1 _) hn)
  have hdrain : ((operations (n + 1)).drain (.ref m.fresh)).run
      (m.push (.iterator (.entries what d 0 es.length))) =
        .ok (es.map (Iterate.shown what)).toArray (m.push (.iterator i)) := by
    refine (hgo n n #[] (by omega)).trans ?_
    rw [Machine.put_push_fresh, Array.empty_append]
  simp only [drained, EStateM.run_bind, hstart, EStateM.run_pure, hdrain]

end

end Stencil.Script
