import Mathlib
import Stencil.Proofs.Reach.Eval
import Stencil.Script.Interpreter

/-!
# Assignments, classes and patterns within limits

What is assigned to targets, what the body of a class leaves in its namespace, and what a pattern captures
is within the limits when the trees and the values at hand are.
-/

namespace Stencil.Script

open Std.Do
open scoped Pairs

set_option mvcgen.warning false

variable {L : Limits} {W : Likeness L} {ops : Ops} (ho : ops.Within W) {env : Env} (henv : env.Within L)
  {line : Nat} (hl : L.line line) {v : Value} {vs : List Value} {es : List Expr} {e : Expr} {n : Nat}

/-- What stands in a list of pairs stands in the lists that they are made of. -/
@[grind →] theorem mem_of_mem_zip {α β : Type} {xs : List α} {ys : List β} {p : α × β}
    (h : p ∈ xs.zip ys) : p.1 ∈ xs ∧ p.2 ∈ ys :=
  List.of_mem_zip h

namespace Assign

section

include ho

@[spec] theorem unpackable_spec (h : v.Within L) :
    ⦃W.inside⦄ unpackable ops v ⦃W.gives (Value.Within L)⦄ := by
  mvcgen [unpackable] with grind

@[spec] theorem takeItems_spec {iterator : Value} (h : iterator.Within L) :
    ⦃W.inside⦄ takeItems ops iterator n ⦃W.gives (Value.AllWithin L)⦄ := by
  induction n with
  | zero => mvcgen [takeItems]
  | succ n ih => mvcgen [takeItems, ih] <;> grind

@[spec] theorem exactly_spec {count : Nat} (h : v.Within L) :
    ⦃W.inside⦄ exactly ops v count ⦃W.gives (Value.AllWithin L)⦄ := by
  mvcgen [exactly] with grind

@[spec] theorem withRest_spec {before behind : Nat} (h : v.Within L) :
    ⦃W.inside⦄ withRest ops v before behind ⦃W.gives (Value.AllWithin L)⦄ := by
  mvcgen [withRest] with grind

@[spec] theorem distribute_spec (h : v.Within L) :
    ⦃W.inside⦄ distribute ops v es ⦃W.gives (Value.AllWithin L)⦄ := by
  mvcgen [distribute] with grind

include henv

@[spec] theorem target_spec (he : e.Within L) (h : v.Within L) :
    ⦃W.inside⦄ target ops env n e v ⦃W.stays⦄ := by
  induction n generalizing e v with
  | zero => mvcgen [target]
  | succ n ih =>
    cases he <;> (unfold target; mvcgen [ih] with grind)

@[spec] theorem targets_spec (he : ∀ e ∈ es, e.Within L) (h : v.Within L) :
    ⦃W.inside⦄ targets ops env es v ⦃W.stays⦄ := by
  mvcgen [targets] with grind

@[spec] theorem delete_spec (he : e.Within L) : ⦃W.inside⦄ delete ops env n e ⦃W.stays⦄ := by
  induction n generalizing e with
  | zero => mvcgen [delete]
  | succ n ih => (cases he <;> (unfold delete; mvcgen [ih] with grind))

include hl

@[spec] theorem augment_spec {op : BinaryOp} {operand : Run Value} (he : e.Within L)
    (hoperand : ⦃W.inside⦄ operand ⦃W.gives (Value.Within L)⦄) :
    ⦃W.inside⦄ augment ops env line e op operand ⦃W.stays⦄ := by
  cases he <;> (unfold augment; mvcgen [hoperand] with grind)

end

end Assign

/-- What the body of a function or class leaves off with is within limits. -/
@[spec high] theorem Run.nested_outcome_spec {x : Run Outcome} (h : ⦃W.inside⦄ x ⦃W.gives (Outcome.Within L)⦄) :
    ⦃W.inside⦄ nested x ⦃W.gives (Outcome.Within L)⦄ :=
  nested_spec h

namespace Class

variable {lists : List (List Value)} {name : String}

/-- The next class of an order is among those that are put in order. -/
theorem mem_of_nextHead? {all : List (List Value)} (h : nextHead? all lists = some v) :
    ∃ vs ∈ lists, v ∈ vs := by
  induction lists with
  | nil => cases h
  | cons l lists ih =>
    cases l with
    | nil =>
      obtain ⟨vs, hvs, hv⟩ := ih h
      exact ⟨vs, List.mem_cons_of_mem _ hvs, hv⟩
    | cons x l =>
      rw [nextHead?] at h
      split at h
      · obtain ⟨vs, hvs, hv⟩ := ih h
        exact ⟨vs, List.mem_cons_of_mem _ hvs, hv⟩
      · obtain rfl := Option.some.inj h
        exact ⟨_, List.mem_cons_self, List.mem_cons_self⟩

/-- Classes that are put in order stay within limits. -/
theorem within_merge (h : merge n lists = some vs) (hl : ∀ l ∈ lists, Value.AllWithin L l) :
    Value.AllWithin L vs := by
  induction n generalizing lists vs with
  | zero => cases h
  | succ n ih =>
    have hfilter (l : List Value) (hmem : l ∈ lists.filter (!·.isEmpty)) : Value.AllWithin L l :=
      hl l (List.mem_of_mem_filter hmem)
    rw [merge] at h
    split at h
    · obtain rfl := Option.some.inj h
      trivial
    · split at h
      · cases h
      · next v hv =>
        obtain ⟨us, hus, rfl⟩ := Option.map_eq_some_iff.1 h
        obtain ⟨l, hmem, hvl⟩ := mem_of_nextHead? hv
        refine ⟨(hfilter l hmem).of_mem hvl, ih hus (List.forall_mem_map.2 fun l hmem => ?_)⟩
        have hl := hfilter l hmem
        split
        · split
          · exact hl.2
          · exact hl
        · trivial

@[spec] theorem namesOf_spec (h : Value.AllWithin L vs) : ⦃W.inside⦄ namesOf vs ⦃W.stays⦄ := by
  mvcgen [namesOf] with grind

@[spec] theorem lineageOf_spec (h : Value.AllWithin L vs) :
    ⦃W.inside⦄ lineageOf vs ⦃W.gives (Value.AllWithin L)⦄ := by
  refine W.gives_bind (Run.gives_mapM fun v hv => Run.lineage_spec (h.of_mem hv)) fun lines hlines => ?_
  have horder (n : Nat) (us : List Value) : merge n (lines ++ [vs]) = some us → Value.AllWithin L us :=
    fun hus => within_merge hus (by simpa [or_imp, forall_and] using And.intro hlines h)
  mvcgen with grind

@[grind ←] theorem within_membersOf {es : Entries} (h : es.Within L) : (membersOf es).Within L := by
  refine h.filterMap fun e p hp => ?_
  grind

@[spec] theorem membersIn_spec {a : Address} (ha : L.address a) :
    ⦃W.inside⦄ membersIn a ⦃W.gives (Members.Within L)⦄ := by
  mvcgen [membersIn] with grind

@[spec] theorem define_spec (ho : ops.Within W) (henv : env.Within L) {body : List Stmt}
    (h : Value.AllWithin L vs) (hbody : ∀ s ∈ body, s.Within L) :
    ⦃W.inside⦄ define ops env name vs body ⦃W.gives (Value.Within L)⦄ := by
  have hcaptured (x : Variable) (hx : x ∈ Scope.captured env) : x.Within L := Scope.within_captured henv hx
  have hhidden := W.binds.2
  mvcgen [define] with grind

end Class

/-- A value may be missing where an exception is raised. -/
@[spec] theorem Run.catching_option_spec {x : Run (Option Value)} {handler : Address → Run (Option Value)}
    (hx : ⦃W.inside⦄ x ⦃W.gives (Value.IfWithin L)⦄)
    (hh : ∀ e, L.address e → ⦃W.inside⦄ handler e ⦃W.gives (Value.IfWithin L)⦄) :
    ⦃W.inside⦄ catching x handler ⦃W.gives (Value.IfWithin L)⦄ :=
  gives_catching hx hh

namespace Match

variable {p : Pattern} {ps : List Pattern}

/-- The names and the values that a match captures, if there is one, are within limits. -/
@[simp, grind =] def CapturesWithin (L : Limits) : Option Members → Prop
  | some ms => (∀ m ∈ ms, L.name m.1) ∧ ms.Within L
  | none => True

@[grind ←] theorem CapturesWithin.map {ms : Option Members} {f : Members → Members}
    (h : CapturesWithin L ms) (hf : ∀ ms, CapturesWithin L (some ms) → CapturesWithin L (some (f ms))) :
    CapturesWithin L (ms.map f) := by
  cases ms with
  | none => trivial
  | some ms => exact hf ms h

/-- Patterns and the values that they are matched with are within limits. -/
def PairsWithin (L : Limits) (ps : List (Pattern × Value)) : Prop :=
  ∀ p ∈ ps, p.1.Within L ∧ p.2.Within L

@[simp, grind .] theorem pairsWithin_nil : PairsWithin L [] :=
  nofun

@[simp, grind =] theorem pairsWithin_cons {pair : Pattern × Value} {pairs : List (Pattern × Value)} :
    PairsWithin L (pair :: pairs) ↔ (pair.1.Within L ∧ pair.2.Within L) ∧ PairsWithin L pairs :=
  List.forall_mem_cons

@[simp, grind =] theorem pairsWithin_append {ps qs : List (Pattern × Value)} :
    PairsWithin L (ps ++ qs) ↔ PairsWithin L ps ∧ PairsWithin L qs :=
  List.forall_mem_append

@[grind ←] theorem pairsWithin_zip (hps : ∀ p ∈ ps, p.Within L) (hvs : Value.AllWithin L vs) :
    PairsWithin L (ps.zip vs) := fun _ h =>
  have ⟨hp, hv⟩ := mem_of_mem_zip h
  ⟨hps _ hp, hvs.of_mem hv⟩

@[spec] theorem sequence?_spec (h : v.Within L) :
    ⦃W.inside⦄ sequence? v ⦃W.gives fun vs => ∀ ws, vs = some ws → Value.AllWithin L ws⦄ := by
  mvcgen [sequence?] with grind

@[spec] theorem mapping?_spec (h : v.Within L) :
    ⦃W.inside⦄ mapping? v ⦃W.gives fun es => ∀ fs, es = some fs → Entries.Within L fs⦄ := by
  mvcgen [mapping?] with grind

@[spec] theorem spread_spec (h : Value.AllWithin L vs) :
    ⦃W.inside⦄ spread ps vs ⦃W.gives fun vs => ∀ ws, vs = some ws → Value.AllWithin L ws⦄ := by
  mvcgen [spread] with grind

@[spec] theorem inTurn_spec {f : Pattern → Value → Run (Option Members)} {pairs : List (Pattern × Value)}
    (hf : ∀ p v, p.Within L → v.Within L → ⦃W.inside⦄ f p v ⦃W.gives (CapturesWithin L)⦄)
    (h : PairsWithin L pairs) : ⦃W.inside⦄ inTurn f pairs ⦃W.gives (CapturesWithin L)⦄ := by
  induction pairs with
  | nil => (mvcgen [inTurn]; grind)
  | cons pair pairs ih =>
    obtain ⟨hpair, hpairs⟩ := List.forall_mem_cons.1 h
    have ih := ih hpairs
    mvcgen [inTurn, hf, ih] with grind

@[spec high] theorem mapM_named_spec {γ : Type} {xs : List γ} {f : γ → Run (String × Pattern)}
    (h : ∀ x ∈ xs, ⦃W.inside⦄ f x ⦃W.gives fun i => i.2.Within L⦄) :
    ⦃W.inside⦄ xs.mapM f ⦃W.gives fun is => ∀ i ∈ is, i.2.Within L⦄ :=
  Run.gives_mapM h

section

include ho

@[spec] theorem membersOf_spec {named : List (String × Pattern)} (h : v.Within L)
    (hnamed : ∀ i ∈ named, i.2.Within L) :
    ⦃W.inside⦄ membersOf ops v named ⦃W.gives fun ps => ∀ qs, ps = some qs → PairsWithin L qs⦄ := by
  induction named with
  | nil => (mvcgen [membersOf]; grind)
  | cons i rest ih =>
    obtain ⟨hi, hrest⟩ := List.forall_mem_cons.1 hnamed
    have ih := ih hrest
    mvcgen [membersOf, ih] with grind [Option.map_eq_some_iff]

include henv

@[spec] theorem pattern_spec (hp : p.Within L) (h : v.Within L) :
    ⦃W.inside⦄ pattern ops env n p v ⦃W.gives (CapturesWithin L)⦄ := by
  induction n generalizing p v with
  | zero => mvcgen [pattern]
  | succ n ih =>
    cases hp with
    | value hl he => (unfold pattern; mvcgen with grind)
    | singleton hl => (unfold pattern; mvcgen with grind)
    | capture hl hid => (unfold pattern; mvcgen with grind)
    | wildcard hl => (unfold pattern; mvcgen with grind)
    | star hl hid => (unfold pattern; mvcgen with grind)
    | sequence hl hitems => (unfold pattern; mvcgen [ih] with grind)
    | mapping hl hkeys hitems hrest =>
      have hfound {es : Entries} (hes : es.Within L) (keys : List Value) :
          Value.AllWithin L (keys.filterMap es.find?) :=
        Value.allWithin_iff.2 fun _ hv => by
          obtain ⟨_, -, hfind⟩ := List.mem_filterMap.1 hv
          exact hes.find? hfind
      have hpatterns : ∀ p ∈ List.map Prod.snd _, Pattern.Within L p := List.forall_mem_map.2 hitems
      unfold pattern
      (mvcgen [ih] with grind)
    | ofClass hl hcallee hitems hnamed => (unfold pattern; mvcgen [ih] with grind)
    | @either _ items hl hitems =>
      have hfirst : ⦃W.inside⦄ pattern.first ops env n v items ⦃W.gives (CapturesWithin L)⦄ := by
        clear hl
        induction items with
        | nil => mvcgen [pattern.first]
        | cons p rest ihrest =>
          obtain ⟨hp, hrest⟩ := List.forall_mem_cons.1 hitems
          have ihrest := ihrest hrest
          mvcgen [pattern.first, ih, ihrest] with grind
      unfold pattern
      (mvcgen [hfirst])
    | named hl hitem hid => (unfold pattern; mvcgen [ih] with grind)

end

end Match

end Stencil.Script
