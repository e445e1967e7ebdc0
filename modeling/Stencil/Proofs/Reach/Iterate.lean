import Mathlib
import Stencil.Proofs.Reach.Operations
import Stencil.Script.Interpreter

/-!
# Arguments, comparisons and iterators within limits

Taking arguments apart keeps to the limits: a complaint about arguments names kinds and counts only, and
the values that parameters get are arguments or defaults.

Equality, order and iterators are computed from operations within limits: what is compared or iterated
over is within the limits, and so are the items that come out.
-/

namespace Stencil.Script

/-! ## Arguments -/

open Std.Do
open scoped Pairs

set_option mvcgen.warning false

variable {L : Limits} {W : Likeness L} {α : Type} {name : String} {args : List Value} {named : Members}
  {v : Value}

namespace Arguments

@[spec] theorem noNamed_spec : ⦃W.inside⦄ noNamed name named ⦃W.stays⦄ := by
  mvcgen [noNamed] with grind

@[spec] theorem noneOf_spec : ⦃W.inside⦄ noneOf name args named ⦃W.stays⦄ := by
  mvcgen [noneOf] with grind

@[spec] theorem one_spec (h : Value.AllWithin L args) :
    ⦃W.inside⦄ one name args named ⦃W.gives (Value.Within L)⦄ := by
  mvcgen [one] with grind

@[spec] theorem between_spec {least most : Nat} :
    ⦃W.inside⦄ between name least most args ⦃W.stays⦄ := by
  mvcgen [between] with grind

@[spec] theorem positional_spec {least most : Nat} :
    ⦃W.inside⦄ positional name least most args named ⦃W.stays⦄ := by
  mvcgen [positional]

@[spec] theorem givenName_spec (h : v.Within L) : ⦃W.inside⦄ givenName v ⦃W.stays⦄ := by
  mvcgen [givenName] with grind

@[spec] theorem integer_spec (h : v.Within L) : ⦃W.inside⦄ integer v ⦃W.stays⦄ := by
  mvcgen [integer] with grind

@[spec] theorem sized_spec {bits : Nat} {word : String} (h : v.Within L) :
    ⦃W.inside⦄ sized bits word v ⦃W.stays⦄ := by
  mvcgen [sized] with grind

@[spec] theorem size_spec (h : v.Within L) : ⦃W.inside⦄ size v ⦃W.stays⦄ :=
  sized_spec h

@[spec] theorem small_spec (h : v.Within L) : ⦃W.inside⦄ small v ⦃W.stays⦄ :=
  sized_spec h

@[spec] theorem onlyNamed_spec {allowed : List String} :
    ⦃W.inside⦄ onlyNamed name allowed named ⦃W.stays⦄ := by
  mvcgen [onlyNamed] with grind

namespace Signature

variable {s : Signature}

@[spec] theorem checkCounts_spec : ⦃W.inside⦄ s.checkCounts args named ⦃W.stays⦄ := by
  mvcgen [checkCounts] with grind

/-- The values of parameters are among the arguments. -/
@[spec] theorem take_spec (hargs : Value.AllWithin L args) (hnamed : named.Within L) :
    ⦃W.inside⦄ s.take args named ⦃W.gives (Value.AllIfWithin L)⦄ := by
  mvcgen [take] with grind [Value.AllIfWithin]

end Signature

end Arguments

namespace Binding

variable {path : String} {params : List ParamSlot} {bound extra : Members}

@[spec] theorem bindNamed_spec (hnamed : named.Within L) (hbound : bound.Within L)
    (hextra : extra.Within L) :
    ⦃W.inside⦄ bindNamed path params named bound extra
    ⦃W.gives fun r => r.1.Within L ∧ r.2.Within L⦄ := by
  induction named generalizing bound extra with
  | nil => mvcgen [bindNamed]
  | cons p rest ih =>
    mvcgen [bindNamed, ih] with grind

@[spec] theorem checkMissing_spec {what : String} :
    ⦃W.inside⦄ checkMissing path what params bound ⦃W.stays⦄ := by
  mvcgen [checkMissing] with grind

/-- Arguments that are bound to parameters stay within limits, together with the values that parameters
take without an argument. -/
@[spec] theorem bind_spec (hparams : ParamSlot.AllWithin L params) (hargs : Value.AllWithin L args)
    (hnamed : named.Within L) :
    ⦃W.inside⦄ bind path params args named ⦃W.gives (Members.Within L)⦄ := by
  have hzip {xs : List ParamSlot} {p} (hp : p ∈ xs.zip args) : p.2.Within L :=
    hargs.of_mem (List.of_mem_zip hp).2
  have hdefault (p) (hp : p ∈ params) : Value.IfWithin L p.default := hparams p hp
  mvcgen [bind] with grind

end Binding

end Stencil.Script

namespace Stencil.Script

/-! ## Comparing and iterating -/

open Std.Do
open scoped Pairs

set_option mvcgen.warning false

variable {L : Limits} {W : Likeness L} {ops : Ops} (ho : ops.Within W) {α : Type} {v a b x y : Value}
  {vs xs ys : List Value}
include ho

namespace Compare

@[spec] theorem sameOrEqual_spec (hx : x.Within L) (hy : y.Within L) :
    ⦃W.inside⦄ sameOrEqual ops x y ⦃W.stays⦄ := by
  mvcgen [sameOrEqual] with grind

@[spec] theorem equalAll_spec (hx : Value.AllWithin L xs) (hy : Value.AllWithin L ys) :
    ⦃W.inside⦄ equalAll ops xs ys ⦃W.stays⦄ := by
  induction xs generalizing ys with
  | nil => cases ys <;> mvcgen [equalAll]
  | cons x xs ih => cases ys <;> mvcgen [equalAll, ih] <;> grind

@[spec] theorem equalEntries_spec {es other : Entries} (he : es.Within L) (hother : other.Within L) :
    ⦃W.inside⦄ equalEntries ops other es ⦃W.stays⦄ := by
  induction es with
  | nil => mvcgen [equalEntries]
  | cons e es ih => mvcgen [equalEntries, ih] <;> grind

@[spec] theorem equalByMethod?_spec (ha : a.Within L) (hb : b.Within L) :
    ⦃W.inside⦄ equalByMethod? ops a b ⦃W.stays⦄ := by
  mvcgen [equalByMethod?] with grind

@[spec] theorem equalObjects_spec {a b : Address} (ha : L.address a) (hb : L.address b) :
    ⦃W.inside⦄ equalObjects ops a b ⦃W.stays⦄ := by
  mvcgen [equalObjects] with grind

omit ho in
@[spec] theorem setOf?_spec (h : v.Within L) :
    ⦃W.inside⦄ setOf? v ⦃W.gives fun r => ∀ s, r = some s → Value.AllWithin L s.2⦄ := by
  mvcgen [setOf?] with grind

@[spec] theorem equal_spec (ha : a.Within L) (hb : b.Within L) :
    ⦃W.inside⦄ equal ops a b ⦃W.stays⦄ := by
  mvcgen [equal] with grind

@[spec] theorem sequences_spec {op : CompareOp} (hx : Value.AllWithin L xs)
    (hy : Value.AllWithin L ys) : ⦃W.inside⦄ sequences ops op xs ys ⦃W.gives (Value.Within L)⦄ := by
  induction xs generalizing ys with
  | nil => mvcgen [sequences]
  | cons x xs ih => cases ys <;> mvcgen [sequences, ih] <;> grind

@[spec] theorem byKind?_spec {op : CompareOp} (ha : a.Within L) (hb : b.Within L) :
    ⦃W.inside⦄ byKind? ops op a b ⦃W.gives (Value.IfWithin L)⦄ := by
  mvcgen [byKind?] with grind

@[spec] theorem byMethod?_spec {op : CompareOp} (ha : a.Within L) (hb : b.Within L) :
    ⦃W.inside⦄ byMethod? ops op a b ⦃W.gives (Value.IfWithin L)⦄ := by
  mvcgen [byMethod?]

@[spec] theorem order_spec {op : CompareOp} (ha : a.Within L) (hb : b.Within L) :
    ⦃W.inside⦄ order ops op a b ⦃W.gives (Value.Within L)⦄ := by
  mvcgen [order] with grind

@[spec] theorem less_spec (ha : a.Within L) (hb : b.Within L) :
    ⦃W.inside⦄ less ops a b ⦃W.stays⦄ := by
  mvcgen [less] with grind

@[spec] theorem position_spec {key : Value} {xs : Array (Value × Value)} {fuel low high : Nat}
    (hk : key.Within L) (hx : Entries.Within L xs.toList) :
    ⦃W.inside⦄ position ops key xs fuel low high ⦃W.stays⦄ := by
  induction fuel generalizing low high with
  | zero => mvcgen [position]
  | succ n ih => (mvcgen [position, ih]; grind)

@[spec] theorem insertSorted_spec {xs : Array (Value × Value)} {x : Value × Value}
    (hx : Entries.Within L xs.toList) (h : x.1.Within L ∧ x.2.Within L) :
    ⦃W.inside⦄ insertSorted ops xs x ⦃W.gives fun ys => Entries.Within L ys.toList⦄ := by
  mvcgen [insertSorted] with grind

/-- Sorting values by their keys gives some of the values. -/
@[spec] theorem sort_spec {descending : Bool} {xs : Entries} (hx : xs.Within L) :
    ⦃W.inside⦄ sort ops descending xs ⦃W.gives (Value.AllWithin L)⦄ := by
  have hsorted {ys : Entries} (hy : ys.Within L) :
      ⦃W.inside⦄ ys.foldlM (insertSorted ops) #[] ⦃W.gives fun ys => Entries.Within L ys.toList⦄ := by
    refine Run.gives_foldlM Entries.within_nil fun zs hz x hx => ?_
    exact insertSorted_spec ho hz (hy.of_mem hx)
  mvcgen [sort, hsorted] with grind

end Compare

namespace Iterate

omit ho in
@[grind .] theorem within_characters {s : String} : Value.AllWithin L (characters s) := by
  rw [characters, Value.AllWithin.map]
  exact fun _ _ => trivial

omit ho in
@[spec] theorem new_spec {i : Iterator} (h : i.Within L) :
    ⦃W.inside⦄ new i ⦃W.gives (Value.Within L)⦄ := by
  mvcgen [new] with grind

omit ho in
@[spec] theorem overEntries_spec {what : View} {a : Address} (ha : L.address a) :
    ⦃W.inside⦄ overEntries what a ⦃W.gives (Value.Within L)⦄ := by
  mvcgen [overEntries] with grind

omit ho in
@[spec] theorem notIterable_spec (h : v.Within L) : ⦃W.inside⦄ (notIterable v : Run α) ⦃W.fails⦄ := by
  mvcgen [notIterable]

@[spec] theorem overInstance_spec {i : Instance} (h : v.Within L) (hi : i.Within L) :
    ⦃W.inside⦄ overInstance ops v i ⦃W.gives (Value.Within L)⦄ := by
  mvcgen [overInstance] with grind

omit ho in
/-- A set gives its members and nothing else. -/
@[grind ←] theorem within_arranged (h : Value.AllWithin L vs) : Value.AllWithin L (Value.arranged vs) := by
  have hinsert {x : Nat × Value} {ys : List (Nat × Value)} :
      Places.inserted x ys ⊆ x :: ys := by
    induction ys with
    | nil => simp [Places.inserted]
    | cons y ys ih => grind [Places.inserted]
  have hfold (ps : List (Nat × Value)) : ps.foldr Places.inserted [] ⊆ ps := by
    induction ps with
    | nil => simp
    | cons p ps ih => exact fun x hx => List.cons_subset_cons p ih (hinsert hx)
  rw [Value.arranged]
  cases (vs.mapM (Places.of? (Places.count vs.length))) with
  | none => exact h
  | some ps =>
    rw [Option.elim_some]
    split
    · rw [Value.AllWithin.map]
      exact fun p hp => h.of_mem (List.of_mem_zip (hfold _ hp)).2
    · exact h

@[spec] theorem start_spec (h : v.Within L) : ⦃W.inside⦄ start ops v ⦃W.gives (Value.Within L)⦄ := by
  mvcgen [start] with grind

@[spec] theorem items_spec (h : v.Within L) :
    ⦃W.inside⦄ items ops v ⦃W.gives (Value.AllWithin L)⦄ := by
  mvcgen [items] with grind

/-- Takes up a generator: what is left of its body is kept, and what it gives is within limits. -/
@[spec] theorem resume_spec {a : Address} {g : Generator} {signal : Signal} (ha : L.address a)
    (hg : (Object.generator g).Within L) (hs : signal.Within L) :
    ⦃W.inside⦄ resume ops a g signal ⦃W.gives (Advance.Within L)⦄ := by
  mvcgen [resume] with grind

omit ho in
@[spec] theorem endedBy_spec {e : Address} (he : L.address e) :
    ⦃W.inside⦄ endedBy e ⦃W.gives (Advance.Within L)⦄ := by
  mvcgen [endedBy] with grind

@[spec] theorem raiseFrom_spec {e : Address} (h : v.Within L) (he : L.address e) :
    ⦃W.inside⦄ raiseFrom ops v e ⦃W.gives (Advance.Within L)⦄ := by
  mvcgen [raiseFrom] with grind

@[spec] theorem advanceInstance_spec (h : v.Within L) :
    ⦃W.inside⦄ advanceInstance ops v ⦃W.gives (Advance.Within L)⦄ := by
  mvcgen [advanceInstance] with grind

@[spec] theorem advanceAll_spec {acc : List Value} (h : Value.AllWithin L vs)
    (hacc : Value.AllWithin L acc) :
    ⦃W.inside⦄ advanceAll ops vs acc ⦃W.gives fun r => Value.AllWithin L r.1⦄ := by
  induction vs generalizing acc with
  | nil => (mvcgen [advanceAll]; grind)
  | cons v vs ih => mvcgen [advanceAll, ih] <;> grind

@[spec] theorem checkTogether_spec {given : Nat} (h : Value.AllWithin L vs) :
    ⦃W.inside⦄ checkTogether ops vs given ⦃W.stays⦄ := by
  mvcgen [checkTogether] with grind

@[spec] theorem search_spec {test source : Value} {n : Nat} (ht : test.Within L)
    (hs : source.Within L) :
    ⦃W.inside⦄ search ops test source n ⦃W.gives (Advance.Within L)⦄ := by
  induction n with
  | zero => mvcgen [search]
  | succ n ih => mvcgen [search, ih] <;> grind

omit ho in
@[grind ←] theorem within_shown {what : View} {e : Value × Value} (h : e.1.Within L ∧ e.2.Within L) :
    (shown what e).Within L := by
  cases what <;> grind [shown]

@[spec] theorem advanceIterator_spec {a : Address} {i : Iterator} (ha : L.address a)
    (hi : i.Within L) : ⦃W.inside⦄ advanceIterator ops a i ⦃W.gives (Advance.Within L)⦄ := by
  mvcgen [advanceIterator] with grind

@[spec] theorem advance_spec {sent : Value} (h : v.Within L) (hs : sent.Within L) :
    ⦃W.inside⦄ advance ops v sent ⦃W.gives (Advance.Within L)⦄ := by
  mvcgen [advance] with grind

end Iterate

end Stencil.Script
