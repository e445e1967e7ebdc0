import Mathlib
import Stencil.Proofs.Reach.Items
import Stencil.Proofs.Reach.Iterate

/-!
# Methods and members within limits

The methods of strings, collections and contexts work on the value itself and on their arguments, and a
member of a value is found in the objects behind it: all of these are within the limits, so what they
give is.
-/

namespace Stencil.Script

open Std.Do
open scoped Pairs

set_option mvcgen.warning false

variable {L : Limits} {W : Likeness L} {ops : Ops} (ho : ops.Within W) {α : Type} {v x : Value}
  {args vs : List Value} {named : Members} {name : String} {a : Address}

namespace ListMethod

section

include ho

@[spec] theorem place?_spec {k : Nat} (hx : x.Within L) (hvs : Value.AllWithin L vs) :
    ⦃W.inside⦄ place? ops x k vs ⦃W.stays⦄ := by
  induction vs generalizing k with
  | nil => mvcgen [place?]
  | cons v vs ih => mvcgen [place?, ih] <;> grind

@[spec] theorem count_spec {n : Nat} (hx : x.Within L) (hvs : Value.AllWithin L vs) :
    ⦃W.inside⦄ count ops x n vs ⦃W.gives (Value.Within L)⦄ := by
  induction vs generalizing n with
  | nil => mvcgen [count]
  | cons v vs ih => mvcgen [count, ih] <;> grind

@[spec] theorem index?_spec (hvs : Value.AllWithin L vs) (hargs : Value.AllWithin L args) :
    ⦃W.inside⦄ index? ops vs args ⦃W.stays⦄ := by
  mvcgen [index?] with grind

@[spec] theorem sort_spec (ha : L.address a) (hnamed : named.Within L) :
    ⦃W.inside⦄ sort ops a named ⦃W.stays⦄ := by
  mvcgen [sort] with grind

omit ho in
@[spec] theorem pop_spec {xs : Array Value} (ha : L.address a) (hxs : Value.AllWithin L xs.toList)
    (hargs : Value.AllWithin L args) :
    ⦃W.inside⦄ pop a xs args ⦃W.gives (Value.Within L)⦄ := by
  have hget (k : Nat) : (xs.getD k .none).Within L := hxs.getD_array (v := .none) trivial k
  mvcgen [pop] with grind

@[spec] theorem call_spec (ha : L.address a) (hargs : Value.AllWithin L args)
    (hnamed : named.Within L) : ⦃W.inside⦄ call ops a name args named ⦃W.gives (Value.Within L)⦄ := by
  mvcgen [call] with grind

end

end ListMethod

namespace TupleMethod

include ho in
@[spec] theorem call_spec (hvs : Value.AllWithin L vs) (hargs : Value.AllWithin L args) :
    ⦃W.inside⦄ call ops vs name args named ⦃W.gives (Value.Within L)⦄ := by
  mvcgen [call] with grind

end TupleMethod

namespace DictMethod

@[spec] theorem insertNamed_spec (ha : L.address a) (hnamed : named.Within L) :
    ⦃W.inside⦄ insertNamed a named ⦃W.stays⦄ := by
  mvcgen [insertNamed] with grind

@[spec] theorem lookup?_spec (ha : L.address a) (hx : x.Within L) :
    ⦃W.inside⦄ lookup? a x ⦃W.gives (Value.IfWithin L)⦄ := by
  mvcgen [lookup?] with grind

include ho

@[spec] theorem fill_spec (ha : L.address a) (hargs : Value.AllWithin L args)
    (hnamed : named.Within L) : ⦃W.inside⦄ fill ops name a args named ⦃W.stays⦄ := by
  mvcgen [fill] with grind

@[spec] theorem fromKeys_spec (hargs : Value.AllWithin L args) :
    ⦃W.inside⦄ fromKeys ops args named ⦃W.gives (Value.Within L)⦄ := by
  mvcgen [fromKeys] with grind

@[spec] theorem call_spec (ha : L.address a) (hargs : Value.AllWithin L args)
    (hnamed : named.Within L) : ⦃W.inside⦄ call ops a name args named ⦃W.gives (Value.Within L)⦄ := by
  mvcgen [call] with grind

end DictMethod

namespace SetMethod

include ho in
@[spec] theorem call_spec {frozen : Bool} (ha : L.address a) (hvs : Value.AllWithin L vs)
    (hargs : Value.AllWithin L args) :
    ⦃W.inside⦄ call ops a frozen vs name args named ⦃W.gives (Value.Within L)⦄ := by
  have harranged := Iterate.within_arranged hvs
  mvcgen [call] with grind

end SetMethod

namespace Str

@[spec] theorem string_spec {complain : String → String} (h : v.Within L) :
    ⦃W.inside⦄ string complain v ⦃W.stays⦄ := by
  mvcgen [string] with grind

@[spec] theorem namedString_spec {argument : String} (h : v.Within L) :
    ⦃W.inside⦄ namedString argument v ⦃W.stays⦄ := by
  mvcgen [namedString] with grind

@[spec] theorem plainString_spec (h : v.Within L) : ⦃W.inside⦄ plainString v ⦃W.stays⦄ :=
  string_spec h

@[spec] theorem searchBound_spec {i : Nat} : ⦃W.inside⦄ searchBound args i ⦃W.stays⦄ := by
  mvcgen [searchBound]

@[spec] theorem searched_spec {t : Text} : ⦃W.inside⦄ searched t args ⦃W.stays⦄ := by
  mvcgen [searched]

@[spec] theorem searchArguments_spec : ⦃W.inside⦄ searchArguments name args named ⦃W.stays⦄ := by
  mvcgen [searchArguments] with grind

@[spec] theorem place?_spec {t : Text} {last : Bool} (hargs : Value.AllWithin L args) :
    ⦃W.inside⦄ place? name t args named last ⦃W.stays⦄ := by
  mvcgen [place?] with grind

@[spec] theorem edge_spec {test : Text → Text → Bool} {t : Text} (hargs : Value.AllWithin L args) :
    ⦃W.inside⦄ edge name test t args named ⦃W.gives (Value.Within L)⦄ := by
  have hhead : (args.headD .none).Within L := hargs.headD trivial
  mvcgen [edge] with grind

@[spec] theorem parts_spec {fromEnd : Bool} {t : Text} (hargs : Value.AllWithin L args)
    (hnamed : named.Within L) : ⦃W.inside⦄ parts name fromEnd t args named ⦃W.stays⦄ := by
  mvcgen [parts] with grind

@[spec] theorem partition_spec {fromEnd : Bool} {t : Text} (h : v.Within L) :
    ⦃W.inside⦄ partition fromEnd t v ⦃W.gives (Value.Within L)⦄ := by
  mvcgen [partition]

@[spec] theorem trimmed_spec : ⦃W.inside⦄ trimmed name args named ⦃W.stays⦄ := by
  mvcgen [trimmed] with grind

@[spec] theorem width_spec (h : v.Within L) : ⦃W.inside⦄ width v ⦃W.stays⦄ := by
  mvcgen [width] with grind

@[spec] theorem padding_spec (hargs : Value.AllWithin L args) :
    ⦃W.inside⦄ padding name args named ⦃W.stays⦄ := by
  mvcgen [padding] with grind

include ho

@[spec] theorem join_spec {t : Text} (h : v.Within L) :
    ⦃W.inside⦄ join ops t v ⦃W.gives (Value.Within L)⦄ := by
  mvcgen [join] with grind

@[spec] theorem callWith_spec {t : Text} (hargs : Value.AllWithin L args) (hnamed : named.Within L) :
    ⦃W.inside⦄ callWith ops t name args named ⦃W.gives (Value.Within L)⦄ := by
  mvcgen [callWith] with grind [value]

@[spec] theorem call_spec {s : String} (hargs : Value.AllWithin L args) (hnamed : named.Within L) :
    ⦃W.inside⦄ call ops s name args named ⦃W.gives (Value.Within L)⦄ := by
  mvcgen [call] with grind [value]

end Str

@[spec] theorem plainText_spec (ho : ops.Within W) (h : v.Within L) :
    ⦃W.inside⦄ plainText ops v ⦃W.stays⦄ := by
  mvcgen [plainText] with grind

@[spec] theorem Escaper.apply_spec {e : Escaper} (ho : ops.Within W) (h : v.Within L) :
    ⦃W.inside⦄ e.apply ops v ⦃W.gives (Value.Within L)⦄ := by
  mvcgen [apply]

namespace ContextMethod

variable {k : ContextKind} {i : Instance}

@[grind →] theorem within_dict? {d : Address} (h : i.Within L) (hd : dict? k i = some d) :
    L.address d := by
  unfold dict? at hd
  cases hs : store k <;> grind

@[grind ←] theorem within_view_dict? {what : View} (h : i.Within L) :
    (((dict? k i).map (Value.view what)).getD .none).Within L := by
  cases hd : dict? k i with
  | none => trivial
  | some d => exact within_dict? h hd

@[spec] theorem memberName_spec (h : v.Within L) : ⦃W.inside⦄ memberName v ⦃W.stays⦄ := by
  mvcgen [memberName] with grind

/-- The parameters of the methods of contexts take nothing but a missing value by themselves. -/
theorem within_params? : ParamSlot.AllWithin L (required "self" :: (params? k name).getD []) := by
  unfold params? required optional ParamSlot.AllWithin
  grind

include ho

@[spec] theorem escape_spec (hi : i.Within L) (h : v.Within L) :
    ⦃W.inside⦄ escape ops k i v ⦃W.gives (Value.Within L)⦄ := by
  mvcgen [escape] with grind

@[spec] theorem lookup_spec (ha : L.address a) (hi : i.Within L) (h : v.Within L) (hx : x.Within L) :
    ⦃W.inside⦄ lookup ops k a i v x ⦃W.gives (Value.Within L)⦄ := by
  mvcgen [lookup] with grind

@[spec] theorem insert_spec (ha : L.address a) (hi : i.Within L) (h : v.Within L) (hx : x.Within L) :
    ⦃W.inside⦄ insert ops k a i v x ⦃W.stays⦄ := by
  mvcgen [insert] with grind

@[spec] theorem call_spec (ha : L.address a) (hargs : Value.AllWithin L args)
    (hnamed : named.Within L) :
    ⦃W.inside⦄ call ops k a name args named ⦃W.gives (Value.Within L)⦄ := by
  have hslots : ParamSlot.AllWithin L (required "self" :: (params? k name).getD []) := within_params?
  have hblank : Instance.Within L ⟨.none, [], [], none⟩ := ⟨trivial, trivial, trivial, nofun⟩
  mvcgen [call] with grind

end ContextMethod

namespace Member

variable {i : Instance}

@[spec] theorem missing_spec (h : v.Within L) : ⦃W.inside⦄ (missing v name : Run α) ⦃W.fails⦄ := by
  mvcgen [missing]

@[spec] theorem fromClasses?_spec (h : Value.AllWithin L vs) :
    ⦃W.inside⦄ fromClasses? name vs ⦃W.gives (Value.IfWithin L)⦄ := by
  induction vs with
  | nil => mvcgen [fromClasses?]
  | cons v vs ih => mvcgen [fromClasses?, ih] <;> grind

@[spec] theorem common?_spec (h : v.Within L) :
    ⦃W.inside⦄ common? v name ⦃W.gives (Value.IfWithin L)⦄ := by
  mvcgen [common?]

@[spec] theorem ofException?_spec (hi : i.Within L) :
    ⦃W.inside⦄ ofException? i name ⦃W.gives (Value.IfWithin L)⦄ := by
  mvcgen [ofException?] with grind

@[spec] theorem asDict_spec {ms : Members} (h : ms.Within L) :
    ⦃W.inside⦄ asDict ms ⦃W.gives (Value.Within L)⦄ := by
  mvcgen [asDict] with grind

@[spec] theorem ofClass_spec (h : v.Within L) :
    ⦃W.inside⦄ ofClass v name ⦃W.gives (Value.Within L)⦄ := by
  mvcgen [ofClass] with grind

@[spec] theorem ofFunction_spec {f : Function} (h : v.Within L) (hf : f.Within L) :
    ⦃W.inside⦄ ofFunction v f name ⦃W.gives (Value.Within L)⦄ := by
  mvcgen [ofFunction] with grind

/-- A part of a number is a number. -/
theorem within_ofNumber? {n : Number} (h : ofNumber? n name = some v) : v.Within L := by
  unfold ofNumber? at h
  grind

@[spec] theorem ofKind_spec (h : v.Within L) :
    ⦃W.inside⦄ ofKind v name ⦃W.gives (Value.Within L)⦄ := by
  have hpart {w : Value} (hw : (v.number?.bind fun n => ofNumber? n name) = some w) : w.Within L := by
    obtain ⟨n, -, hn⟩ := Option.bind_eq_some_iff.1 hw
    exact within_ofNumber? hn
  mvcgen [ofKind] with grind [Option.map_eq_some_iff]

@[spec] theorem readOnly_spec (h : v.Within L) : ⦃W.inside⦄ readOnly v name ⦃W.stays⦄ := by
  mvcgen [readOnly] with grind

@[spec] theorem delete_spec (h : v.Within L) : ⦃W.inside⦄ delete v name ⦃W.stays⦄ := by
  mvcgen [delete] with grind

include ho

@[spec] theorem bound_spec (h : v.Within L) (hx : x.Within L) :
    ⦃W.inside⦄ bound ops v x ⦃W.gives (Value.Within L)⦄ := by
  mvcgen [bound] with grind

@[spec] theorem ofInstance_spec (h : v.Within L) (hi : i.Within L) :
    ⦃W.inside⦄ ofInstance ops v i name ⦃W.gives (Value.Within L)⦄ := by
  mvcgen [ofInstance] with grind

@[spec] theorem get_spec (h : v.Within L) : ⦃W.inside⦄ get ops v name ⦃W.gives (Value.Within L)⦄ := by
  mvcgen [get] with grind

@[spec] theorem set_spec (h : v.Within L) (hx : x.Within L) :
    ⦃W.inside⦄ set ops v name x ⦃W.stays⦄ := by
  mvcgen [set] with grind

end Member

end Stencil.Script
