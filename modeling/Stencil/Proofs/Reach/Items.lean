import Mathlib
import Stencil.Proofs.Reach.Iterate

/-!
# Texts, items and operators within limits

Writing the text of a value, and reading, writing and removing items, keeps to the limits: a text is
made from the texts of what a value holds, and an item is written into an object within the limits.

Filling in a text looks values up among those given and below them, and an operator makes its result from
its operands: both stay within the limits.
-/

namespace Stencil.Script

/-! ## Texts and items -/

open Std.Do
open scoped Pairs

set_option mvcgen.warning false

variable {L : Limits} {W : Likeness L} {ops : Ops} (ho : ops.Within W) {α : Type} {v a b x y : Value}
  {vs xs ys : List Value}

namespace Show

theorem run_guarded (a : Address) (cycle : String) (body : Run String) (m : Machine) :
    (guarded a cycle body).run m =
      if m.showing.contains a then .ok cycle m
      else
        match body.run { m with showing := a :: m.showing } with
        | .ok s m' => .ok s { m' with showing := m.showing }
        | .error e m' => .error e { m' with showing := m.showing } := by
  unfold guarded
  simp only [EStateM.run_bind, EStateM.run_get]
  split
  · rfl
  · simp only [EStateM.run_bind, EStateM.run_set, Run.run_tryCatch]
    cases body.run { m with showing := a :: m.showing } <;> rfl

/-- A container is noted while it is written, and on alike machines the same containers are noted. -/
@[spec] theorem guarded_spec {a : Address} {cycle : String} {body : Run String}
    (h : ⦃W.inside⦄ body ⦃W.stays⦄) : ⦃W.inside⦄ guarded a cycle body ⦃W.stays⦄ := by
  refine W.stays_of_run fun m n hw => ?_
  rw [run_guarded, run_guarded, ← W.showing hw]
  split
  · exact ⟨rfl, hw⟩
  · have hx := Pairs.triple_iff.1 h _ _ (W.show' (a :: m.showing) hw)
    cases hm : body.run { m with showing := a :: m.showing } <;>
      cases hn : body.run { n with showing := a :: m.showing } <;> rw [hm, hn] at hx
    case ok.ok => exact ⟨hx.1, W.show' m.showing hx.2⟩
    case error.error => exact ⟨hx.1, hx.2.1, W.show' m.showing hx.2.2⟩
    all_goals exact hx.elim

include ho

@[spec] theorem each_spec (h : Value.AllWithin L vs) : ⦃W.inside⦄ each ops vs ⦃W.stays⦄ := by
  mvcgen [each] with grind

@[spec] theorem entries_spec {es : Entries} (h : es.Within L) :
    ⦃W.inside⦄ entries ops es ⦃W.stays⦄ := by
  mvcgen [entries] with grind

@[spec] theorem tuple_spec (h : Value.AllWithin L vs) : ⦃W.inside⦄ tuple ops vs ⦃W.stays⦄ := by
  mvcgen [tuple]

omit ho in
@[spec] theorem plainObject_spec {a : Address} {cls : Value} (h : cls.Within L) :
    ⦃W.inside⦄ plainObject a cls ⦃W.stays⦄ := by
  mvcgen [plainObject]

omit ho in
@[spec] theorem fromMethod_spec {name : String} (h : v.Within L) :
    ⦃W.inside⦄ fromMethod name v ⦃W.stays⦄ := by
  mvcgen [fromMethod] with grind

@[spec] theorem shownException_spec {i : Instance} (h : i.Within L) :
    ⦃W.inside⦄ shownException ops i ⦃W.stays⦄ := by
  mvcgen [shownException] with grind

@[spec] theorem objectOf_spec {a : Address} {i : Instance} (ha : L.address a) (h : i.Within L) :
    ⦃W.inside⦄ objectOf ops a i ⦃W.stays⦄ := by
  mvcgen [objectOf] with grind

@[spec] theorem object_spec {a : Address} (ha : L.address a) :
    ⦃W.inside⦄ object ops a ⦃W.stays⦄ := by
  mvcgen [object] with grind

@[spec] theorem repr_spec (h : v.Within L) : ⦃W.inside⦄ repr ops v ⦃W.stays⦄ := by
  mvcgen [repr] with grind

@[spec] theorem exception_spec {i : Instance} (h : i.Within L) :
    ⦃W.inside⦄ exception ops i ⦃W.stays⦄ := by
  mvcgen [exception] with grind

@[spec] theorem str_spec (h : v.Within L) : ⦃W.inside⦄ str ops v ⦃W.stays⦄ := by
  mvcgen [str] with grind

end Show

namespace Item

/-- Whether a value can be a key is the same on machines that are alike. -/
theorem alike_unhashable? {m n : Machine} (hw : W.alike m n) :
    (∀ v : Value, v.Within L → unhashable? m v = unhashable? n v) ∧
      ∀ vs : List Value, Value.AllWithin L vs → anyUnhashable? m vs = anyUnhashable? n vs := by
  have hobject {a : Address} (ha : L.address a) : m.heap[a.index]? = n.heap[a.index]? :=
    (W.object hw ha).1
  refine unhashable?.mutual_induct m (fun v => v.Within L → unhashable? m v = unhashable? n v)
    (fun vs => Value.AllWithin L vs → anyUnhashable? m vs = anyUnhashable? n vs)
    ?_ ?_ ?_ ?_ ?_ ?_ ?_ ?_ ?_ ?_ ?_ ?_ <;> grind [unhashable?, anyUnhashable?]

theorem run_checkKey (v : Value) (m : Machine) :
    (checkKey v).run m = (unhashable? m v).elim (.ok () m) fun k =>
      (Run.typeError s!"unhashable type: '{k}'").run m := by
  unfold checkKey
  simp only [EStateM.run_bind, EStateM.run_get]
  cases unhashable? m v <;> rfl

@[spec] theorem checkKey_spec (h : v.Within L) : ⦃W.inside⦄ checkKey v ⦃W.stays⦄ := by
  refine W.stays_of_run fun m n hw => ?_
  rw [run_checkKey, run_checkKey, ← (alike_unhashable? hw).1 v h]
  cases unhashable? m v with
  | none => exact ⟨rfl, hw⟩
  | some k => exact Pairs.triple_iff.1 (W.stays_of_fails Run.typeError_spec) m n hw

@[spec] theorem bound?_spec : ⦃W.inside⦄ bound? v ⦃W.stays⦄ := by
  mvcgen [bound?] with grind

@[spec] theorem sliceBounds_spec {size : Nat} {low high step : Value} :
    ⦃W.inside⦄ sliceBounds size low high step ⦃W.stays⦄ := by
  mvcgen [sliceBounds]

@[spec] theorem sliced_spec {xs : Array α} {low high step : Value} :
    ⦃W.inside⦄ sliced xs low high step ⦃W.gives fun ys => ∀ y ∈ ys, y ∈ xs⦄ := by
  mvcgen [sliced] with grind

@[spec high] theorem sliced_values_spec {xs : Array Value} {low high step : Value}
    (h : Value.AllWithin L xs.toList) :
    ⦃W.inside⦄ sliced xs low high step ⦃W.gives (Value.AllWithin L)⦄ :=
  W.gives_mono sliced_spec fun _ hys =>
    h.of_subset fun y hy => Array.mem_toList_iff.2 (hys y hy)

@[spec] theorem checkIndex_spec {i : Int} : ⦃W.inside⦄ checkIndex i ⦃W.stays⦄ := by
  mvcgen [checkIndex] with grind

@[spec] theorem wrongIndex_spec {what : String} (h : v.Within L) :
    ⦃W.inside⦄ (wrongIndex what v : Run α) ⦃W.fails⦄ := by
  mvcgen [wrongIndex]

theorem mem_of_place? {xs : Array α} {i : Int} {x : α}
    (h : (place? xs.size i).bind (xs[·]?) = some x) : x ∈ xs := by
  obtain ⟨k, -, hk⟩ := Option.bind_eq_some_iff.1 h
  exact Array.mem_of_getElem? hk

/-- An item of a sequence is one of its items. -/
@[spec] theorem itemAt_spec {what : String} {wrong : Value → Run α} {xs : Array α}
    (h : v.Within L) (hw : ∀ v : Value, v.Within L → ⦃W.inside⦄ wrong v ⦃W.fails⦄) :
    ⦃W.inside⦄ itemAt what wrong xs v ⦃W.gives fun x => x ∈ xs⦄ := by
  mvcgen [itemAt, hw] with grind [mem_of_place?]

@[spec high] theorem itemAt_values_spec {what : String} {wrong : Value → Run Value}
    {xs : Array Value} (h : v.Within L) (hxs : Value.AllWithin L xs.toList)
    (hw : ∀ v : Value, v.Within L → ⦃W.inside⦄ wrong v ⦃W.fails⦄) :
    ⦃W.inside⦄ itemAt what wrong xs v ⦃W.gives (Value.Within L)⦄ :=
  W.gives_mono (itemAt_spec h hw) fun _ hx => hxs.of_mem (Array.mem_toList_iff.2 hx)

@[spec] theorem entry_spec {d : Address} (hd : L.address d) (h : v.Within L) :
    ⦃W.inside⦄ entry d v ⦃W.gives (Value.Within L)⦄ := by
  mvcgen [entry] with grind

@[spec] theorem ofRange_spec {start stop step : Int} (h : v.Within L) :
    ⦃W.inside⦄ ofRange start stop step v ⦃W.gives (Value.Within L)⦄ := by
  mvcgen [ofRange] with grind

@[grind →] theorem within_bindingsOf? {i : Instance} {d : Address} (h : i.Within L)
    (hd : bindingsOf? i = some d) : L.address d := by
  grind [bindingsOf?]

@[spec] theorem noItems_spec (h : v.Within L) : ⦃W.inside⦄ (noItems v : Run α) ⦃W.fails⦄ := by
  mvcgen [noItems]

@[spec] theorem hasPlaces_spec (h : v.Within L) : ⦃W.inside⦄ hasPlaces v ⦃W.stays⦄ := by
  mvcgen [hasPlaces] with grind

@[spec] theorem setEntry_spec {d : Address} {key : Value} (hd : L.address d) (hk : key.Within L)
    (h : v.Within L) : ⦃W.inside⦄ setEntry d key v ⦃W.stays⦄ := by
  mvcgen [setEntry] with grind

include ho

@[spec] theorem get_spec {index : Value} (h : v.Within L) (hi : index.Within L) :
    ⦃W.inside⦄ get ops v index ⦃W.gives (Value.Within L)⦄ := by
  mvcgen [get] with grind

@[spec] theorem insertPair_spec {d : Address} {place : Nat} (hd : L.address d) (h : v.Within L) :
    ⦃W.inside⦄ insertPair ops d place v ⦃W.stays⦄ := by
  mvcgen [insertPair] with grind

@[spec] theorem insertFrom_spec {d : Address} (hd : L.address d) (h : v.Within L) :
    ⦃W.inside⦄ insertFrom ops d v ⦃W.stays⦄ := by
  mvcgen [insertFrom] with grind

@[spec] theorem setSlice_spec {d : Address} {low high step : Value} (hd : L.address d)
    (h : v.Within L) : ⦃W.inside⦄ setSlice ops d low high step v ⦃W.stays⦄ := by
  have hzip {ks : List Nat} {vs : List Value} {p : Nat × Value} (hp : p ∈ ks.zip vs) (h : Value.AllWithin L vs) :
      p.2.Within L :=
    h.of_mem (List.of_mem_zip hp).2
  mvcgen [setSlice] with grind

@[spec] theorem set_spec {index : Value} (h : v.Within L) (hi : index.Within L) (hx : x.Within L) :
    ⦃W.inside⦄ set ops v index x ⦃W.stays⦄ := by
  mvcgen [set] with grind

@[spec] theorem delete_spec {index : Value} (h : v.Within L) (hi : index.Within L) :
    ⦃W.inside⦄ delete ops v index ⦃W.stays⦄ := by
  mvcgen [delete] with grind

@[spec] theorem member_spec (h : v.Within L) (hvs : Value.AllWithin L vs) :
    ⦃W.inside⦄ member ops v vs ⦃W.stays⦄ := by
  induction vs with
  | nil => mvcgen [member]
  | cons w vs ih => (mvcgen [member, ih] with grind)

@[spec] theorem among_spec {iterator : Value} {n : Nat} (h : v.Within L) (hi : iterator.Within L) :
    ⦃W.inside⦄ among ops v iterator n ⦃W.stays⦄ := by
  induction n with
  | zero => mvcgen [among]
  | succ n ih => (mvcgen [among, ih] with grind)

@[spec] theorem contains_spec (h : v.Within L) (hx : x.Within L) :
    ⦃W.inside⦄ contains ops v x ⦃W.stays⦄ := by
  -- The case of bytes looks at two things at once, so it is reached by cases.
  cases v with
  | bytes b => cases x <;> simp only [contains, Value.int?] <;> mvcgen <;> grind
  | view what a => cases what <;> simp only [contains] <;> mvcgen <;> grind
  | _ => (simp only [contains]; mvcgen with grind)

end Item

end Stencil.Script

namespace Stencil.Script

/-! ## Formats and operators -/

open Std.Do
open scoped Pairs

set_option mvcgen.warning false

variable {L : Limits} {W : Likeness L} {ops : Ops} (ho : ops.Within W) {α : Type} {v a b : Value}
  {args vs ws : List Value} {named : Members}

namespace Fields

@[spec] theorem firstValue_spec {n : Numbering} {name : Text} (hargs : Value.AllWithin L args)
    (hnamed : named.Within L) :
    ⦃W.inside⦄ firstValue args named n name ⦃W.gives fun r => r.1.Within L⦄ := by
  mvcgen [firstValue] with grind

include ho

@[spec] theorem follow_spec {fuel : Nat} {path : Text} (h : v.Within L) :
    ⦃W.inside⦄ follow ops fuel v path ⦃W.gives (Value.Within L)⦄ := by
  induction fuel using Nat.strong_induction_on generalizing v path with
  | _ fuel ih =>
    rw [follow.eq_def]
    mvcgen [ih] <;> grind

@[spec] theorem converted_spec {c : Option Char} (h : v.Within L) :
    ⦃W.inside⦄ converted ops c v ⦃W.gives (Value.Within L)⦄ := by
  mvcgen [converted] with grind

@[spec] theorem fill_spec {fuel depth : Nat} {n : Numbering} {t : Text}
    (hargs : Value.AllWithin L args) (hnamed : named.Within L) :
    ⦃W.inside⦄ fill ops args named fuel depth n t ⦃W.stays⦄ := by
  induction fuel using Nat.strong_induction_on generalizing depth n t with
  | _ fuel ih =>
    rw [fill.eq_def]
    mvcgen [ih] <;> grind

@[spec] theorem format_spec {t : Text} (hargs : Value.AllWithin L args) (hnamed : named.Within L) :
    ⦃W.inside⦄ format ops t args named ⦃W.stays⦄ := by
  mvcgen [format]

@[spec] theorem write_spec {spec : String} (h : v.Within L) :
    ⦃W.inside⦄ write ops v spec ⦃W.stays⦄ := by
  mvcgen [write] with grind

end Fields

namespace Percent

/-- The values of a format and the mapping among them are within limits. -/
@[simp, grind =] def Supply.Within (L : Limits) (s : Supply) : Prop :=
  Value.AllWithin L s.rest ∧ Value.IfWithin L s.mapping

variable {s : Supply} {code : Char}

@[spec] theorem take_spec (hs : s.Within L) :
    ⦃W.inside⦄ take s ⦃W.gives fun r => r.1.Within L ∧ r.2.Within L⦄ := by
  mvcgen [take] with grind

@[spec] theorem readCount_spec {t : Text} (hs : s.Within L) :
    ⦃W.inside⦄ readCount s t ⦃W.gives fun r => r.2.1.Within L⦄ := by
  mvcgen [readCount] with grind

@[spec] theorem needsNumber_spec {what : String} (h : v.Within L) :
    ⦃W.inside⦄ (needsNumber code what v : Run α) ⦃W.fails⦄ := by
  mvcgen [needsNumber]

@[spec] theorem integerOf_spec (h : v.Within L) : ⦃W.inside⦄ integerOf code v ⦃W.stays⦄ := by
  mvcgen [integerOf] with grind

@[grind .] theorem failsWithin_writeFloat {d : Directive} {width : Nat} {precision : Option Nat}
    {x : Float} : FailsWithin L (writeFloat d width precision code x) := by
  unfold writeFloat
  grind

@[spec] theorem floatOf_spec (h : v.Within L) : ⦃W.inside⦄ floatOf v ⦃W.stays⦄ := by
  mvcgen [floatOf] with grind

@[spec] theorem hasItems_spec (h : v.Within L) : ⦃W.inside⦄ hasItems v ⦃W.stays⦄ := by
  mvcgen [hasItems] with grind

@[spec] theorem characterOf_spec : ⦃W.inside⦄ characterOf v ⦃W.stays⦄ := by
  mvcgen [characterOf] with grind

include ho

@[spec] theorem write_spec {d : Directive} {width : Nat} {precision : Option Nat} (h : v.Within L) :
    ⦃W.inside⦄ write ops d width precision code v ⦃W.stays⦄ := by
  mvcgen [write] with grind

@[spec] theorem writeFrom_spec {fuel total : Nat} {t : Text} (hs : s.Within L) :
    ⦃W.inside⦄ writeFrom ops fuel s total t ⦃W.gives fun r => r.2.Within L⦄ := by
  induction fuel using Nat.strong_induction_on generalizing s total t with
  | _ fuel ih =>
    rw [writeFrom.eq_def]
    mvcgen [ih] <;> grind

@[spec] theorem format_spec {t : Text} (h : v.Within L) :
    ⦃W.inside⦄ format ops t v ⦃W.stays⦄ := by
  mvcgen [format] with grind

end Percent

namespace Operator

variable {op : BinaryOp} {augmented : Bool}

@[spec] theorem unsupported_spec (ha : a.Within L) (hb : b.Within L) :
    ⦃W.inside⦄ (unsupported op augmented a b : Run α) ⦃W.fails⦄ := by
  mvcgen [unsupported]

@[spec] theorem repeated_spec {xs : List α} {count : Int} :
    ⦃W.inside⦄ repeated xs count ⦃W.gives fun ys => ∀ y ∈ ys, y ∈ xs⦄ := by
  mvcgen [repeated] with grind [List.mem_flatten]

@[spec high] theorem repeated_values_spec {count : Int} (h : Value.AllWithin L vs) :
    ⦃W.inside⦄ repeated vs count ⦃W.gives (Value.AllWithin L)⦄ :=
  W.gives_mono repeated_spec fun _ hys => h.of_subset hys

/-- The items of a sequence of values are within limits. -/
@[simp, grind =] def Sequence.Within (L : Limits) : Sequence → Prop
  | .str _ | .bytes _ => True
  | .tuple vs | .list vs => Value.AllWithin L vs

@[spec] theorem sequence?_spec (h : v.Within L) :
    ⦃W.inside⦄ sequence? v ⦃W.gives fun r => ∀ s, r = some s → s.Within L⦄ := by
  mvcgen [sequence?] with grind

@[spec] theorem repeat_spec {s : Sequence} {count : Int} (hs : s.Within L) :
    ⦃W.inside⦄ s.repeat count ⦃W.gives (Value.Within L)⦄ := by
  mvcgen [Sequence.repeat] with grind

@[spec] theorem join_spec {s : Sequence} (hs : s.Within L) (h : v.Within L) :
    ⦃W.inside⦄ s.join v ⦃W.gives (Value.Within L)⦄ := by
  mvcgen [Sequence.join] with grind

@[spec] theorem multiply?_spec (ha : a.Within L) (hb : b.Within L) :
    ⦃W.inside⦄ multiply? augmented a b ⦃W.gives (Value.IfWithin L)⦄ := by
  mvcgen [multiply?] with grind

@[grind →] theorem within_combineSets (hv : Value.AllWithin L vs) (hw : Value.AllWithin L ws)
    {us : List Value} (h : combineSets op vs ws = some us) : Value.AllWithin L us := by
  unfold combineSets at h
  grind

@[grind ←] theorem within_combineSets_getD (hv : Value.AllWithin L vs) (hw : Value.AllWithin L ws) :
    Value.AllWithin L ((combineSets op vs ws).getD vs) := by
  cases h : combineSets op vs ws with
  | none => exact hv
  | some us => exact within_combineSets hv hw h

@[grind ←] theorem within_distinct (h : Value.AllWithin L vs) : Value.AllWithin L (distinct vs) := by
  refine List.foldlRecOn (motive := Value.AllWithin L) vs _ trivial fun ws hw v hv => ?_
  have hv : v.Within L := h.of_mem hv
  grind

section

include ho

@[spec] theorem byMethod?_spec {name : String} (ha : a.Within L) (hb : b.Within L) :
    ⦃W.inside⦄ byMethod? ops a name b ⦃W.gives (Value.IfWithin L)⦄ := by
  mvcgen [byMethod?]

@[spec] theorem distinctItems_spec (h : v.Within L) :
    ⦃W.inside⦄ distinctItems ops v ⦃W.gives (Value.AllWithin L)⦄ := by
  mvcgen [distinctItems] with grind

@[spec] theorem merge?_spec (ha : a.Within L) (hb : b.Within L) :
    ⦃W.inside⦄ merge? ops op a b ⦃W.gives (Value.IfWithin L)⦄ := by
  mvcgen [merge?] with grind

@[spec] theorem byKind?_spec (ha : a.Within L) (hb : b.Within L) :
    ⦃W.inside⦄ byKind? ops op augmented a b ⦃W.gives (Value.IfWithin L)⦄ := by
  have hnumber {x : Except Failure Value} {v : Value} (hx : a.arithmetic? op b = some x)
      (hv : x = .ok v) : v.Within L :=
    (GivesNumber.arithmetic? hx).within hv
  mvcgen [byKind?] with grind

@[spec] theorem apply_spec (ha : a.Within L) (hb : b.Within L) :
    ⦃W.inside⦄ apply ops op augmented a b ⦃W.gives (Value.Within L)⦄ := by
  mvcgen [apply] with grind

@[spec] theorem binary_spec (ha : a.Within L) (hb : b.Within L) :
    ⦃W.inside⦄ binary ops op a b ⦃W.gives (Value.Within L)⦄ :=
  apply_spec ho ha hb

@[spec] theorem augmented_spec (ha : a.Within L) (hb : b.Within L) :
    ⦃W.inside⦄ Operator.augmented ops op a b ⦃W.gives (Value.Within L)⦄ := by
  mvcgen [Operator.augmented] with grind

omit ho in
@[spec] theorem badOperand_spec {sign : String} (h : v.Within L) :
    ⦃W.inside⦄ (badOperand sign v : Run α) ⦃W.fails⦄ := by
  mvcgen [badOperand]

@[spec] theorem unary_spec {op : UnaryOp} (h : v.Within L) :
    ⦃W.inside⦄ unary ops op v ⦃W.gives (Value.Within L)⦄ := by
  mvcgen [unary] with grind

@[spec] theorem compare_spec {op : CompareOp} (ha : a.Within L) (hb : b.Within L) :
    ⦃W.inside⦄ compare ops op a b ⦃W.gives (Value.Within L)⦄ := by
  mvcgen [compare] with grind

end

end Operator

end Stencil.Script
