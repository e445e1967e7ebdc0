import Mathlib
import Stencil.Proofs.Reach.Methods

/-!
# Calls within limits

Built-in functions, kinds and functions of scripts are called with values within the limits and give such
values. The one function that hands out the namespace of a run is among the values only where the limits
allow it.
-/

namespace Stencil.Script

open Std.Do
open scoped Pairs

set_option mvcgen.warning false

variable {L : Limits} {W : Likeness L} {ops : Ops} (ho : ops.Within W) {α : Type} {v x : Value}
  {args vs : List Value} {named : Members} {name : String} {a : Address}

namespace Builtin

/-- The best value so far and its key, if there is one, are within limits. -/
@[simp, grind =] def BestWithin (L : Limits) : Option (Value × Value) → Prop
  | some b => b.1.Within L ∧ b.2.Within L
  | none => True

@[spec] theorem isCallable_spec (h : v.Within L) : ⦃W.inside⦄ isCallable v ⦃W.stays⦄ := by
  mvcgen [isCallable] with grind

@[spec] theorem classes_spec {complaint : String} {n : Nat} (h : v.Within L) :
    ⦃W.inside⦄ classes complaint n v ⦃W.gives (Value.AllWithin L)⦄ := by
  induction n generalizing v with
  | zero => mvcgen [classes]
  | succ n ih => mvcgen [classes, ih] <;> grind

@[spec] theorem belongs_spec (h : v.Within L) :
    ⦃W.inside⦄ belongs v vs ⦃W.gives (Value.Within L)⦄ := by
  mvcgen [belongs] with grind

@[spec] theorem ord_spec (h : v.Within L) : ⦃W.inside⦄ ord v ⦃W.gives (Value.Within L)⦄ := by
  mvcgen [ord] with grind

@[spec] theorem chr_spec (h : v.Within L) : ⦃W.inside⦄ chr v ⦃W.gives (Value.Within L)⦄ := by
  mvcgen [chr] with grind

@[spec] theorem printOption_spec {standard : String} (hnamed : named.Within L) :
    ⦃W.inside⦄ printOption named name standard ⦃W.stays⦄ := by
  mvcgen [printOption] with grind

@[spec] theorem emit_spec {t : String} : ⦃W.inside⦄ print.emit t ⦃W.stays⦄ :=
  W.stays_of_run fun _ _ hw => ⟨rfl, W.print t hw⟩

@[spec] theorem hash_spec (h : v.Within L) : ⦃W.inside⦄ hash v ⦃W.gives (Value.Within L)⦄ := by
  mvcgen [hash]

include ho

@[spec] theorem length_spec (h : v.Within L) : ⦃W.inside⦄ length ops v ⦃W.stays⦄ := by
  mvcgen [length] with grind

@[spec] theorem search_spec {wanted : Bool} {n : Nat} (h : v.Within L) :
    ⦃W.inside⦄ quantify.search ops wanted v n ⦃W.stays⦄ := by
  induction n with
  | zero => mvcgen [quantify.search]
  | succ n ih => mvcgen [quantify.search, ih] <;> grind

@[spec] theorem quantify_spec {wanted : Bool} (h : v.Within L) :
    ⦃W.inside⦄ quantify ops wanted v ⦃W.gives (Value.Within L)⦄ := by
  mvcgen [quantify] with grind

@[spec] theorem abs_spec (h : v.Within L) : ⦃W.inside⦄ abs ops v ⦃W.gives (Value.Within L)⦄ := by
  mvcgen [abs] with grind

@[spec] theorem divmod_spec (h : v.Within L) (hx : x.Within L) :
    ⦃W.inside⦄ divmod ops v x ⦃W.gives (Value.Within L)⦄ := by
  mvcgen [divmod] with grind

@[spec] theorem pow_spec {modulus : Value} (h : v.Within L) (hx : x.Within L)
    (hm : modulus.Within L) : ⦃W.inside⦄ pow ops v x modulus ⦃W.gives (Value.Within L)⦄ := by
  mvcgen [pow] with grind

@[spec] theorem round_spec {places : Value} (h : v.Within L) (hp : places.Within L) :
    ⦃W.inside⦄ round ops v places ⦃W.gives (Value.Within L)⦄ := by
  mvcgen [round] with grind

@[spec] theorem better_spec {op : CompareOp} {key : Value} {best : Option (Value × Value)}
    (hk : key.Within L) (hbest : BestWithin L best) (h : v.Within L) :
    ⦃W.inside⦄ better ops op key best v ⦃W.gives (BestWithin L)⦄ := by
  mvcgen [better] with grind

@[spec high] theorem foldItems_better_spec {op : CompareOp} {key : Value} (hk : key.Within L)
    (h : v.Within L) :
    ⦃W.inside⦄ ops.foldItems v (better ops op key) none ⦃W.gives (BestWithin L)⦄ :=
  Ops.foldItems_spec ho h trivial fun _ _ hb hv => better_spec ho hk hb hv

@[spec high] theorem foldlM_better_spec {op : CompareOp} {key : Value} (hk : key.Within L)
    (hvs : Value.AllWithin L vs) :
    ⦃W.inside⦄ vs.foldlM (better ops op key) none ⦃W.gives (BestWithin L)⦄ :=
  Run.gives_foldlM trivial fun _ hb _ hv => better_spec ho hk hb (hvs.of_mem hv)

@[spec] theorem select_spec {op : CompareOp} (hargs : Value.AllWithin L args)
    (hnamed : named.Within L) :
    ⦃W.inside⦄ select ops name op args named ⦃W.gives (Value.Within L)⦄ := by
  mvcgen [select] with grind

@[spec] theorem sum_spec (hargs : Value.AllWithin L args) (hnamed : named.Within L) :
    ⦃W.inside⦄ sum ops args named ⦃W.gives (Value.Within L)⦄ := by
  mvcgen [sum] with grind

@[spec] theorem next_spec (hargs : Value.AllWithin L args) :
    ⦃W.inside⦄ next ops args ⦃W.gives (Value.Within L)⦄ := by
  mvcgen [next] with grind

@[spec] theorem print_spec (hargs : Value.AllWithin L args) (hnamed : named.Within L) :
    ⦃W.inside⦄ print ops args named ⦃W.gives (Value.Within L)⦄ := by
  mvcgen [print] with grind

@[spec] theorem getMember_spec (hargs : Value.AllWithin L args) :
    ⦃W.inside⦄ getMember ops args ⦃W.gives (Value.Within L)⦄ := by
  mvcgen [getMember] with grind

@[spec] theorem hasMember_spec (h : v.Within L) (hx : x.Within L) :
    ⦃W.inside⦄ hasMember ops v x ⦃W.gives (Value.Within L)⦄ := by
  mvcgen [hasMember] with grind

@[spec] theorem sorted_spec (hargs : Value.AllWithin L args) (hnamed : named.Within L) :
    ⦃W.inside⦄ sorted ops args named ⦃W.gives (Value.Within L)⦄ := by
  mvcgen [sorted] with grind

/-- Calls a built-in function: the namespace of a run is handed out only where it may be. -/
@[spec] theorem call_spec {f : Native} (hf : (Value.native f).Within L)
    (hargs : Value.AllWithin L args) (hnamed : named.Within L) :
    ⦃W.inside⦄ call ops f args named ⦃W.gives (Value.Within L)⦄ := by
  have hvalue : ParamSlot.AllWithin L [ContextMethod.required "value"] := by
    rintro p (_ | ⟨_, ⟨⟩⟩)
    trivial
  by_cases hspace : f = .globals ∨ f = .locals
  · have hcall : call ops f args named = (do
        Arguments.noneOf f.name args named
        let m ← get
        return .ref m.globals) := by
      rcases hspace with rfl | rfl <;> rfl
    rw [hcall]
    refine W.gives_bind (W.gives_of_stays Arguments.noneOf_spec) fun _ _ => ?_
    exact W.gives_read (g := fun m => Value.ref m.globals) fun hw =>
      have ⟨heq, ha⟩ := W.globals hw (hf hspace)
      ⟨congrArg Value.ref heq, ha⟩
  · mvcgen [call] with grind

end Builtin

namespace Construct

variable {k : Kind}

@[spec] theorem noNamed_spec : ⦃W.inside⦄ noNamed k named ⦃W.stays⦄ := by
  mvcgen [noNamed] with grind

@[spec] theorem atMostOne_spec (hargs : Value.AllWithin L args) :
    ⦃W.inside⦄ atMostOne k args ⦃W.gives (Value.IfWithin L)⦄ := by
  mvcgen [atMostOne] with grind

@[spec] theorem read_spec (h : v.Within L) (hx : x.Within L) :
    ⦃W.inside⦄ read v x ⦃W.gives (Value.Within L)⦄ := by
  mvcgen [read] with grind

@[spec] theorem range_spec (hargs : Value.AllWithin L args) :
    ⦃W.inside⦄ range args ⦃W.gives (Value.Within L)⦄ := by
  mvcgen [range] with grind

@[spec] theorem backwards_spec {what : View} (ha : L.address a) :
    ⦃W.inside⦄ backwards what a ⦃W.gives (Value.Within L)⦄ := by
  mvcgen [backwards] with grind

@[spec] theorem instanceOf_spec (h : v.Within L) (hargs : Value.AllWithin L args) :
    ⦃W.inside⦄ instanceOf v args ⦃W.gives (Value.Within L)⦄ := by
  mvcgen [instanceOf] with grind

include ho

@[spec] theorem int_spec (hargs : Value.AllWithin L args) (hnamed : named.Within L) :
    ⦃W.inside⦄ int ops args named ⦃W.gives (Value.Within L)⦄ := by
  mvcgen [int] with grind

@[spec] theorem float_spec (hargs : Value.AllWithin L args) :
    ⦃W.inside⦄ float ops args ⦃W.gives (Value.Within L)⦄ := by
  mvcgen [float] with grind

@[spec] theorem itemsOf_spec (hargs : Value.AllWithin L args) :
    ⦃W.inside⦄ itemsOf ops k args ⦃W.gives (Value.AllWithin L)⦄ := by
  mvcgen [itemsOf] with grind

@[spec] theorem reversed_spec (h : v.Within L) :
    ⦃W.inside⦄ reversed ops v ⦃W.gives (Value.Within L)⦄ := by
  mvcgen [reversed] with grind

@[spec] theorem enumerate_spec (hargs : Value.AllWithin L args) (hnamed : named.Within L) :
    ⦃W.inside⦄ enumerate ops args named ⦃W.gives (Value.Within L)⦄ := by
  mvcgen [enumerate] with grind

@[spec] theorem call_spec (hargs : Value.AllWithin L args) (hnamed : named.Within L) :
    ⦃W.inside⦄ call ops k args named ⦃W.gives (Value.Within L)⦄ := by
  unfold call
  extract_lets first
  have hfirst : first.Within L := hargs.headD trivial
  clear_value first
  split
  -- The case of bytes looks at two things at once, so it is reached by cases.
  case h_5 => cases first <;> simp only [Value.int?] <;> mvcgen <;> grind
  all_goals mvcgen <;> grind

end Construct

namespace Call

variable {g : Generator} {i : Instance}

section

include ho

@[spec] theorem raiseIn_spec (ha : L.address a) (hg : (Object.generator g).Within L)
    (hargs : Value.AllWithin L args) :
    ⦃W.inside⦄ raiseIn ops a g args ⦃W.gives (Value.Within L)⦄ := by
  have hhead : (args.headD .none).Within L := hargs.headD trivial
  mvcgen [raiseIn] with grind

@[spec] theorem close_spec (ha : L.address a) (hg : (Object.generator g).Within L) :
    ⦃W.inside⦄ close ops a g ⦃W.gives (Value.Within L)⦄ := by
  mvcgen [close] with grind

@[spec] theorem generatorMethod_spec (ha : L.address a) (hg : (Object.generator g).Within L)
    (hargs : Value.AllWithin L args) :
    ⦃W.inside⦄ generatorMethod ops a g name args ⦃W.gives (Value.Within L)⦄ := by
  mvcgen [generatorMethod] with grind

@[spec] theorem commonMethod_spec (h : v.Within L) (hargs : Value.AllWithin L args) :
    ⦃W.inside⦄ commonMethod ops v name args ⦃W.gives (Value.Within L)⦄ := by
  mvcgen [commonMethod] with grind

@[spec] theorem objectMethod_spec (ha : L.address a) (hi : i.Within L)
    (hargs : Value.AllWithin L args) :
    ⦃W.inside⦄ objectMethod ops a i name args ⦃W.gives (Value.Within L)⦄ := by
  mvcgen [objectMethod] with grind

@[spec] theorem rangeMethod_spec {start stop step : Int} (h : v.Within L) :
    ⦃W.inside⦄ rangeMethod ops start stop step name v ⦃W.gives (Value.Within L)⦄ := by
  mvcgen [rangeMethod] with grind

@[spec] theorem method_spec (h : v.Within L) (hargs : Value.AllWithin L args)
    (hnamed : named.Within L) :
    ⦃W.inside⦄ method ops v name args named ⦃W.gives (Value.Within L)⦄ := by
  mvcgen [method] with grind

end

/-- The variables of a function that is called are new ones and those that it captured. -/
@[spec] theorem scope_spec {f : Function} {bound : Members} (hf : f.Within L)
    (hbound : bound.Within L) : ⦃W.inside⦄ scope f bound ⦃W.gives (Env.Within L)⦄ := by
  mvcgen [scope] with grind

@[spec] theorem notCallable_spec (h : v.Within L) :
    ⦃W.inside⦄ notCallable v ⦃W.gives (Value.Within L)⦄ := by
  mvcgen [notCallable] with grind

include ho

@[spec] theorem function_spec {f : Function} (hf : f.Within L) (hargs : Value.AllWithin L args)
    (hnamed : named.Within L) :
    ⦃W.inside⦄ function ops f args named ⦃W.gives (Value.Within L)⦄ := by
  mvcgen [function] with grind

@[spec] theorem construct_spec {c : UserClass} (h : v.Within L) (hargs : Value.AllWithin L args)
    (hnamed : named.Within L) :
    ⦃W.inside⦄ construct ops v c args named ⦃W.gives (Value.Within L)⦄ := by
  mvcgen [construct] with grind

@[spec] theorem call_spec (h : v.Within L) (hargs : Value.AllWithin L args)
    (hnamed : named.Within L) :
    ⦃W.inside⦄ call ops v args named ⦃W.gives (Value.Within L)⦄ := by
  mvcgen [call] with grind

end Call

end Stencil.Script
