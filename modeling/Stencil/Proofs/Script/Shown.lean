import Stencil.Script.Method.Context
import Stencil.Proofs.Script.Stored

/-!
# The text of data on the machine

A value that denotes a data tree is written as the tree is shown, unless an integer within it has too
many digits. No container is met within itself, because what a container holds is at lower addresses.
-/

namespace Stencil.Script

/-- The message about an integer with too many digits. -/
def tooLongMessage : String :=
  "Exceeds the limit (4300 digits) for integer string conversion; use " ++
    "sys.set_int_max_str_digits() to increase the limit"

/-- A result, unless an integer has too many digits. -/
def unlessLong {α : Type} (short : Bool) (r : α) : Run α :=
  if short then pure r else Run.valueError tooLongMessage

/-- An integer is written in decimal notation unless it has too many digits. -/
theorem lift_decimal (i : Int) :
    Run.lift (Numeral.decimal i) =
      unlessLong (decide (i.natAbs < Nat.pow 10 Numeral.digitLimit)) (toString i) := by
  have hlog (limit : Nat) (h : Nat.log2 i.natAbs < 3 * limit) : i.natAbs < Nat.pow 10 limit := by
    have hpow : i.natAbs < 2 ^ (3 * limit) := by
      by_cases hzero : i.natAbs = 0
      · rw [hzero]
        exact Nat.pow_pos (by decide)
      · exact (Nat.log2_lt hzero).1 h
    refine Nat.lt_of_lt_of_le hpow ?_
    rw [Nat.pow_mul]
    exact Nat.pow_le_pow_left (by decide) limit
  have hlog := hlog Numeral.digitLimit
  rw [Numeral.decimal, unlessLong]
  generalize Nat.pow 10 Numeral.digitLimit = bound at hlog ⊢
  by_cases h : i.natAbs < bound
  · simp [h, Run.lift]
  · have hlog' : ¬ Nat.log2 i.natAbs < 3 * Numeral.digitLimit := fun hl => h (hlog hl)
    simp [h, hlog', Run.lift]
    rfl

section

variable {α β : Type} {m : Machine}

/-- A computation goes on with a result, unless an integer has too many digits. -/
theorem run_bind_unlessLong {x : Run α} {f : α → Run β} {short short' : Bool} {r : α} {r' : β}
    (hx : x.run m = (unlessLong short r).run m)
    (hf : (f r).run m = (unlessLong short' r').run m) :
    (x >>= f).run m = (unlessLong (short && short') r').run m := by
  rw [EStateM.run_bind, hx]
  cases short with
  | true => exact hf
  | false => rfl

/-- A computation ends with a result, unless an integer has too many digits. -/
theorem run_bind_pure_unlessLong {x : Run α} {short : Bool} {r : α} (g : α → β)
    (hx : x.run m = (unlessLong short r).run m) :
    (x >>= fun a => pure (g a)).run m = (unlessLong short (g r)).run m := by
  rw [EStateM.run_bind, hx]
  cases short <;> rfl

/-- A container that is not being written is written as what it holds. -/
theorem run_guarded {a : Address} {cycle : String} {body : Run String} {short : Bool} {s : String}
    (ha : a ∉ m.showing)
    (hbody : body.run { m with showing := a :: m.showing } =
      (unlessLong short s).run { m with showing := a :: m.showing }) :
    (Show.guarded a cycle body).run m = (unlessLong short s).run m := by
  have hcontains : m.showing.contains a = false := by
    rw [← Bool.not_eq_true, List.contains_iff_mem]
    exact ha
  simp only [Show.guarded, EStateM.run_bind, EStateM.run_get, hcontains, Bool.false_eq_true, if_false,
    EStateM.run_set, Run.run_tryCatch, hbody]
  cases short <;> rfl

end

/-- An entry of a dictionary as text. -/
def showEntry (ops : Ops) (e : Value × Value) : Run String := do
  let k ← ops.repr e.1
  return k ++ ": " ++ (← ops.repr e.2)

/-- No container below a bound is being written. -/
def Machine.ShowsAbove (m : Machine) (k : Nat) : Prop :=
  ∀ a ∈ m.showing, k ≤ a.index

/-- While a container is being written, none below it is. -/
theorem Machine.ShowsAbove.cons {m : Machine} {k : Nat} {a : Address} (h : m.ShowsAbove k)
    (hlt : a.index < k) :
    Machine.ShowsAbove { m with showing := a :: m.showing } a.index := by
  intro b hb
  rcases List.mem_cons.1 hb with rfl | hb
  · exact Nat.le_refl _
  · exact Nat.le_of_lt (Nat.lt_of_lt_of_le hlt (h b hb))

/-- A container below the bound is not being written. -/
theorem Machine.ShowsAbove.not_mem {m : Machine} {k : Nat} {a : Address} (h : m.ShowsAbove k)
    (hlt : a.index < k) : a ∉ m.showing :=
  fun hmem => Nat.not_lt_of_le (h a hmem) hlt

mutual

/-- A value is shown as its data tree. -/
theorem Denotes.run_repr : (d : Data) → {m : Machine} → {k n : Nat} → {v : Value} → Denotes m k v d →
    m.ShowsAbove k → d.height ≤ n →
    (Show.repr (operations n) v).run m = (unlessLong d.isShort d.shown).run m
  | .none, _, _, _, _, .none, _, _ => rfl
  | .bool _, _, _, _, _, .bool _, _, _ => rfl
  | .int i, m, _, _, _, .int _, _, _ => by
      rw [Show.repr, lift_decimal]
      rfl
  | .float _, _, _, _, _, .float _, _, _ => rfl
  | .str _, _, _, _, _, .str _, _, _ => rfl
  | .list items, m, k, n, _, @Denotes.list _ _ a xs _ hlt hobject hitems, hshowing, hn => by
      have hitems' : DenoteAll { m with showing := a :: m.showing } a.index xs.toList items :=
        hitems.frame fun _ _ => rfl
      have hbody := hitems'.run_each items (hshowing.cons hlt) hn
      rw [Show.repr, Show.object, EStateM.run_bind, Run.run_object?, hobject]
      exact run_guarded (hshowing.not_mem hlt) (run_bind_pure_unlessLong _ hbody)
  | .dict entries, m, k, n, _, @Denotes.dict _ _ a es _ hlt hobject hentries, hshowing, hn => by
      have hentries' : DenoteEntries { m with showing := a :: m.showing } a.index es entries :=
        hentries.frame fun _ _ => rfl
      have hbody := hentries'.run_entries entries (hshowing.cons hlt) hn
      rw [Show.repr, Show.object, EStateM.run_bind, Run.run_object?, hobject]
      exact run_guarded (hshowing.not_mem hlt) (run_bind_pure_unlessLong _ hbody)

/-- Values are shown as their data trees. -/
theorem DenoteAll.run_each : (ds : List Data) → {m : Machine} → {k n : Nat} → {vs : List Value} →
    DenoteAll m k vs ds → m.ShowsAbove k → Data.heightAll ds + 1 ≤ n →
    (Show.each (operations n) vs).run m =
      (unlessLong (Data.areShort ds) (Data.shownItems ds)).run m
  | [], _, _, _, _, .nil, _, _ => rfl
  | d :: ds, m, k, n + 1, _, .cons hd hrest, hshowing, hn => by
      rw [Data.heightAll] at hn
      have hd' := hd.run_repr d (n := n) hshowing (by omega)
      have hrest' := hrest.run_each ds (n := n + 1) hshowing (by omega)
      rw [Show.each, List.mapM_cons]
      exact run_bind_unlessLong hd' (run_bind_pure_unlessLong _ hrest')

/-- Entries are shown as those of a mapping. -/
theorem DenoteEntries.run_entries : (ds : List (Data × Data)) → {m : Machine} → {k n : Nat} →
    {es : Entries} → DenoteEntries m k es ds → m.ShowsAbove k → Data.heightEntries ds + 1 ≤ n →
    (es.mapM (showEntry (operations n))).run m =
      (unlessLong (Data.areShortEntries ds) (Data.shownEntries ds)).run m
  | [], _, _, _, _, .nil, _, _ => rfl
  | (.str name, d) :: ds, m, k, n + 1, _, .cons hd hrest, hshowing, hn => by
      rw [Data.heightEntries] at hn
      have hd' := hd.run_repr d (n := n) hshowing (by omega)
      have hrest' := hrest.run_entries ds (n := n + 1) hshowing (by omega)
      rw [List.mapM_cons, Data.areShortEntries, Data.shownEntries]
      refine run_bind_unlessLong (r := _ ++ ": " ++ d.shown) ?_ (run_bind_pure_unlessLong _ hrest')
      exact run_bind_pure_unlessLong _ hd'

end

/-- The message about an integer with too many digits is raised. -/
theorem run_unlessLong {α : Type} (short : Bool) (r : α) (m : Machine) :
    (unlessLong short r).run m =
      if short then .ok r m
      else .error (.raised m.fresh)
        (m.push (Run.exceptionObject .valueError tooLongMessage m.line)) := by
  cases short <;> rfl

/-- A value is put out as the text of its data tree. -/
theorem Denotes.run_plainText {d : Data} {m : Machine} {k n : Nat} {v : Value} (h : Denotes m k v d)
    (hshowing : m.ShowsAbove k) (hn : d.height + 2 ≤ n) :
    (plainText (operations n) v).run m = (unlessLong d.isShort d.plain).run m := by
  obtain ⟨n, rfl⟩ : ∃ n', n = n' + 2 := ⟨n - 2, by omega⟩
  have hrepr : (Show.repr (operations n) v).run m = (unlessLong d.isShort d.shown).run m :=
    h.run_repr d hshowing (Nat.le_of_add_le_add_right hn)
  cases h with
  | none => rfl
  | str s => rfl
  | bool b | float x | int i => exact hrepr
  | @list _ a _ _ hlt hobject hitems | @dict _ a _ _ hlt hobject hentries =>
      have htext : plainText (operations (n + 2)) (.ref a) = Show.str (operations (n + 1)) (.ref a) :=
        rfl
      rw [htext, Show.str, EStateM.run_bind, Run.run_object?, hobject]
      exact hrepr

end Stencil.Script
