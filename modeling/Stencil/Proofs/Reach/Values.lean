import Mathlib
import Stencil.Proofs.Reach.Trees

/-!
# Values and objects within limits

A value is within limits when the objects that it refers to are among those that a run may reach, and an
object when all that it holds is: values, trees, and the cells of variables. The lists, members and
entries that values are kept in stay within the limits when they are looked up, written or cut.
-/

namespace Stencil.Script

variable {L : Limits}

/-! ## Values -/

mutual

/-- A value is within limits. -/
@[simp, grind =] def Value.Within (L : Limits) : Value → Prop
  | .none | .ellipsis | .notImplemented | .bool _ | .int _ | .float _ | .str _ | .bytes _
  | .range _ _ _ | .kind _ | .unbound _ _ | .foreign _ _ _ => True
  | .tuple vs => Value.AllWithin L vs
  | .slice a b c => Value.Within L a ∧ Value.Within L b ∧ Value.Within L c
  | .native f => f = .globals ∨ f = .locals → L.whole
  | .method self _ => Value.Within L self
  | .bound self f => Value.Within L self ∧ Value.Within L f
  | .view _ a | .ref a => L.address a
  | .wrapped _ f => Value.Within L f
  | .behind cls self => Value.Within L cls ∧ Value.Within L self

/-- All values of a list are within limits. -/
@[simp, grind =] def Value.AllWithin (L : Limits) : List Value → Prop
  | [] => True
  | v :: vs => Value.Within L v ∧ Value.AllWithin L vs

end

namespace Value

variable {v : Value} {vs ws : List Value}

theorem allWithin_iff : AllWithin L vs ↔ ∀ v ∈ vs, v.Within L := by
  induction vs with
  | nil => simp
  | cons v vs ih => rw [AllWithin, ih, List.forall_mem_cons]

namespace AllWithin

/-- What is said of all values of a list is said of each. -/
@[grind →] theorem of_mem (h : AllWithin L vs) (hv : v ∈ vs) : v.Within L :=
  allWithin_iff.1 h v hv

/-- Values that are all among those of a list are within its limits. -/
theorem of_subset (h : AllWithin L vs) (hs : ws ⊆ vs) : AllWithin L ws :=
  allWithin_iff.2 fun _ hv => h.of_mem (hs hv)

@[simp, grind =] theorem append : AllWithin L (vs ++ ws) ↔ AllWithin L vs ∧ AllWithin L ws := by
  simp only [allWithin_iff, List.forall_mem_append]

@[simp, grind =] theorem reverse : AllWithin L vs.reverse ↔ AllWithin L vs := by
  simp only [allWithin_iff, List.mem_reverse]

@[simp, grind =] theorem map {γ : Type} {xs : List γ} {f : γ → Value} :
    AllWithin L (xs.map f) ↔ ∀ x ∈ xs, (f x).Within L := by
  rw [allWithin_iff, List.forall_mem_map]

@[grind ←] theorem take (h : AllWithin L vs) (n : Nat) : AllWithin L (vs.take n) :=
  h.of_subset (List.take_subset n vs)

@[grind ←] theorem drop (h : AllWithin L vs) (n : Nat) : AllWithin L (vs.drop n) :=
  h.of_subset (List.drop_subset n vs)

@[grind ←] theorem dropWhile (h : AllWithin L vs) (p : Value → Bool) :
    AllWithin L (vs.dropWhile p) :=
  h.of_subset (List.dropWhile_subset p)

@[grind ←] theorem filter (h : AllWithin L vs) (p : Value → Bool) : AllWithin L (vs.filter p) :=
  h.of_subset (List.filter_subset_self vs)

@[grind ←] theorem headD (h : AllWithin L vs) (hv : v.Within L) : (vs.headD v).Within L := by
  cases vs <;> simp_all

@[grind ←] theorem getD (h : AllWithin L vs) (hv : v.Within L) (i : Nat) : (vs.getD i v).Within L := by
  rw [List.getD_eq_getElem?_getD]
  cases hi : vs[i]? with
  | none => exact hv
  | some w => exact h.of_mem (List.mem_of_getElem? hi)

@[grind →] theorem getElem? (h : AllWithin L vs) {i : Nat} (hi : vs[i]? = some v) : v.Within L :=
  h.of_mem (List.mem_of_getElem? hi)

@[grind →] theorem head? (h : AllWithin L vs) (hi : vs.head? = some v) : v.Within L :=
  h.of_mem (List.mem_of_mem_head? hi)

@[grind →] theorem getLast? (h : AllWithin L vs) (hi : vs.getLast? = some v) : v.Within L :=
  h.of_mem (List.mem_of_getLast? hi)

@[grind ←] theorem set (h : AllWithin L vs) (hv : v.Within L) (i : Nat) : AllWithin L (vs.set i v) :=
  allWithin_iff.2 fun _ hw => (List.mem_or_eq_of_mem_set hw).elim h.of_mem fun heq => heq ▸ hv

@[grind ←] theorem eraseIdx (h : AllWithin L vs) (i : Nat) : AllWithin L (vs.eraseIdx i) :=
  allWithin_iff.2 fun _ hw => h.of_mem (List.mem_of_mem_eraseIdx hw)

@[grind ←] theorem dropLast (h : AllWithin L vs) : AllWithin L vs.dropLast :=
  h.of_subset (List.dropLast_subset vs)

@[grind ←] theorem extract {xs : Array Value} (h : AllWithin L xs.toList) (i j : Nat) :
    AllWithin L (xs.extract i j).toList := by
  rw [Array.toList_extract, List.extract_eq_take_drop]
  exact (h.drop i).take _

@[grind →] theorem getElem?_array {xs : Array Value} (h : AllWithin L xs.toList) {i : Nat}
    (hi : xs[i]? = some v) : v.Within L :=
  h.of_mem (Array.mem_toList_iff.2 (Array.mem_of_getElem? hi))

@[simp, grind =] theorem push {xs : Array Value} :
    AllWithin L (xs.push v).toList ↔ AllWithin L xs.toList ∧ v.Within L := by
  rw [Array.toList_push, append, AllWithin, AllWithin]
  simp

@[simp, grind =] theorem reverse_array {xs : Array Value} :
    AllWithin L xs.reverse.toList ↔ AllWithin L xs.toList := by
  rw [Array.toList_reverse, reverse]

theorem getD_array {xs : Array Value} (h : AllWithin L xs.toList) (hv : v.Within L) (i : Nat) :
    (xs.getD i v).Within L := by
  rw [Array.getD_eq_getD_getElem?, ← Array.getElem?_toList, ← List.getD_eq_getElem?_getD]
  exact h.getD hv i

@[grind ←] theorem eraseIdx_array {xs : Array Value} (h : AllWithin L xs.toList) (i : Nat) :
    AllWithin L (xs.eraseIdxIfInBounds i).toList := by
  rw [Array.eraseIdxIfInBounds]
  split
  · rw [Array.toList_eraseIdx]
    exact h.eraseIdx i
  · exact h

@[grind ←] theorem setIfInBounds {xs : Array Value} (h : AllWithin L xs.toList) (hv : v.Within L)
    (i : Nat) : AllWithin L (xs.setIfInBounds i v).toList := by
  rw [Array.toList_setIfInBounds]
  exact h.set hv i

@[grind ←] theorem foldl_array {γ : Type} {ys : List γ} {xs : Array Value}
    {f : Array Value → γ → Array Value} (h : AllWithin L xs.toList)
    (hf : ∀ xs : Array Value, AllWithin L xs.toList → ∀ y ∈ ys, AllWithin L (f xs y).toList) :
    AllWithin L (ys.foldl f xs).toList :=
  List.foldlRecOn (motive := fun xs : Array Value => AllWithin L xs.toList) ys f h hf

/-- Values whose places are among those to keep. -/
@[grind ←] theorem filterMap_zipIdx (h : AllWithin L vs) {f : Value × Nat → Option Value}
    (hf : ∀ p v, f p = some v → v = p.1) : AllWithin L (vs.zipIdx.filterMap f) := by
  refine allWithin_iff.2 fun v hv => ?_
  obtain ⟨p, hp, hfp⟩ := List.mem_filterMap.1 hv
  rw [hf p v hfp]
  exact h.of_mem (List.fst_mem_of_mem_zipIdx hp)

end AllWithin

end Value

/-- A value that may be missing is within limits if it is there. -/
@[simp, grind =] def Value.IfWithin (L : Limits) : Option Value → Prop
  | .some v => v.Within L
  | .none => True

theorem Value.ifWithin_iff {v : Option Value} : IfWithin L v ↔ ∀ w, v = .some w → w.Within L := by
  cases v <;> simp

@[grind ←] theorem Value.IfWithin.getD {o : Option Value} {v : Value} (h : IfWithin L o)
    (hv : v.Within L) : (o.getD v).Within L := by
  cases o with
  | none => exact hv
  | some w => exact h

@[grind ←] theorem Value.AllWithin.ifWithin_head? {vs : List Value} (h : AllWithin L vs) :
    IfWithin L vs.head? := by
  cases vs with
  | nil => trivial
  | cons v vs => exact h.1

/-- Those values of a list that are there are within limits. -/
def Value.AllIfWithin (L : Limits) (vs : List (Option Value)) : Prop :=
  ∀ v ∈ vs, Value.IfWithin L v

namespace Value.AllIfWithin

variable {vs : List (Option Value)}

@[grind →] theorem join_head? (h : AllIfWithin L vs) {v : Value} (hv : vs.head?.join = some v) :
    v.Within L :=
  h _ (List.mem_of_mem_head? (Option.join_eq_some_iff.1 hv))

@[grind →] theorem join_getElem? (h : AllIfWithin L vs) {i : Nat} {v : Value}
    (hv : vs[i]?.join = some v) : v.Within L :=
  h _ (List.mem_of_getElem? (Option.join_eq_some_iff.1 hv))

@[grind ←] theorem getD_head? (h : AllIfWithin L vs) {v : Value} (hv : v.Within L) :
    (vs.head?.join.getD v).Within L := by
  cases hj : vs.head?.join with
  | none => exact hv
  | some w => exact h.join_head? hj

@[grind ←] theorem getD_getElem? (h : AllIfWithin L vs) {i : Nat} {v : Value} (hv : v.Within L) :
    (vs[i]?.join.getD v).Within L := by
  cases hj : vs[i]?.join with
  | none => exact hv
  | some w => exact h.join_getElem? hj

@[simp, grind =] theorem cons {v : Option Value} :
    AllIfWithin L (v :: vs) ↔ Value.IfWithin L v ∧ AllIfWithin L vs :=
  List.forall_mem_cons

end Value.AllIfWithin

/-! ## Members and entries -/

/-- The values under names are within limits. -/
def Members.Within (L : Limits) (ms : Members) : Prop :=
  Value.AllWithin L (ms.map Prod.snd)

/-- The keys and the values of entries are within limits. -/
def Entries.Within (L : Limits) (es : Entries) : Prop :=
  Value.AllWithin L (es.map Prod.fst) ∧ Value.AllWithin L (es.map Prod.snd)

namespace Members

variable {ms ns : Members} {v : Value} {n : String}

@[simp, grind .] theorem within_nil : Within L [] := trivial

@[simp, grind =] theorem within_cons {p : String × Value} :
    Within L (p :: ms) ↔ p.2.Within L ∧ Within L ms := .rfl

@[simp, grind =] theorem within_append : Within L (ms ++ ns) ↔ Within L ms ∧ Within L ns := by
  rw [Within, List.map_append, Value.AllWithin.append]
  rfl

theorem within_iff : Within L ms ↔ ∀ p ∈ ms, p.2.Within L := by
  rw [Within, Value.allWithin_iff, List.forall_mem_map]

@[simp, grind =] theorem within_map {γ : Type} {xs : List γ} {f : γ → String × Value} :
    Within L (xs.map f) ↔ ∀ x ∈ xs, (f x).2.Within L := by
  rw [within_iff, List.forall_mem_map]

@[grind →] theorem Within.of_mem {p : String × Value} (h : Within L ms) (hp : p ∈ ms) :
    p.2.Within L :=
  within_iff.1 h p hp

@[grind →] theorem Within.find? (h : Within L ms) (hv : ms.find? n = some v) : v.Within L := by
  induction ms with
  | nil => cases hv
  | cons p ms ih =>
    rw [Members.find?, List.lookup_cons] at hv
    split at hv
    · cases hv
      exact h.1
    · exact ih h.2 hv

@[grind ←] theorem Within.ifWithin_find? (h : Within L ms) : Value.IfWithin L (ms.find? n) :=
  Value.ifWithin_iff.2 fun _ hv => h.find? hv

/-- A member that is written takes the place of that under its name, or comes last. -/
@[grind →] theorem mem_or_eq_of_mem_insert {p : String × Value} (h : p ∈ ms.insert n v) : p ∈ ms ∨ p = (n, v) := by
  induction ms with
  | nil => exact .inr (List.mem_singleton.1 h)
  | cons q ms ih =>
    rw [Members.insert] at h
    split at h
    · next hq => exact (List.mem_cons.1 h).elim (fun h => .inr (hq ▸ h)) fun h => .inl (List.mem_cons_of_mem _ h)
    · rcases List.mem_cons.1 h with rfl | h
      · exact .inl List.mem_cons_self
      · exact (ih h).imp_left (List.mem_cons_of_mem _)

@[grind →] theorem mem_of_mem_erase {p : String × Value} (h : p ∈ ms.erase n) : p ∈ ms :=
  List.mem_of_mem_filter h

@[grind ←] theorem Within.insert (h : Within L ms) (hv : v.Within L) : Within L (ms.insert n v) := by
  induction ms with
  | nil => exact ⟨hv, trivial⟩
  | cons p ms ih =>
    rw [Members.insert]
    split
    · exact ⟨hv, h.2⟩
    · exact ⟨h.1, ih h.2⟩

@[grind ←] theorem Within.erase (h : Within L ms) : Within L (ms.erase n) :=
  within_iff.2 fun p hp => within_iff.1 h p (List.mem_of_mem_filter hp)

@[grind ←] theorem Within.foldl {γ : Type} {xs : List γ} {f : Members → γ → Members} (h : Within L ms)
    (hf : ∀ ms, Within L ms → ∀ x ∈ xs, Within L (f ms x)) : Within L (xs.foldl f ms) :=
  List.foldlRecOn xs f h hf

end Members

namespace Entries

variable {es fs : Entries} {v k : Value}

@[simp, grind .] theorem within_nil : Within L [] := ⟨trivial, trivial⟩

@[simp, grind =] theorem within_cons {e : Value × Value} :
    Within L (e :: es) ↔ (e.1.Within L ∧ e.2.Within L) ∧ Within L es := by
  simp [Within, and_and_and_comm]

theorem within_iff : Within L es ↔ ∀ e ∈ es, e.1.Within L ∧ e.2.Within L := by
  induction es with
  | nil => simp
  | cons e es ih => rw [within_cons, ih, List.forall_mem_cons]

@[grind →] theorem Within.find? (h : Within L es) (hv : es.find? k = some v) : v.Within L := by
  obtain ⟨e, he, rfl⟩ := Option.map_eq_some_iff.1 hv
  exact (within_iff.1 h e (List.mem_of_find?_eq_some he)).2

@[grind ←] theorem Within.ifWithin_find? (h : Within L es) : Value.IfWithin L (es.find? k) :=
  Value.ifWithin_iff.2 fun _ hv => h.find? hv

@[grind ←] theorem Within.ifWithin_named? {n : String} (h : Within L es) :
    Value.IfWithin L (es.named? n) :=
  h.ifWithin_find?

@[grind →] theorem Within.named? {n : String} (h : Within L es) (hv : es.named? n = some v) :
    v.Within L :=
  h.find? hv

@[grind ←] theorem Within.insert (h : Within L es) (hk : k.Within L) (hv : v.Within L) :
    Within L (es.insert k v) := by
  induction es with
  | nil => exact within_cons.2 ⟨⟨hk, hv⟩, h⟩
  | cons e es ih =>
    rw [within_cons] at h
    rw [Entries.insert]
    split
    · exact within_cons.2 ⟨⟨h.1.1, hv⟩, h.2⟩
    · exact within_cons.2 ⟨h.1, ih h.2⟩

@[grind →] theorem Within.of_mem {e : Value × Value} (h : Within L es) (he : e ∈ es) :
    e.1.Within L ∧ e.2.Within L :=
  within_iff.1 h e he

@[grind ←] theorem Within.erase (h : Within L es) : Within L (es.erase k) :=
  within_iff.2 fun e he => within_iff.1 h e (List.mem_of_mem_filter he)

/-- Entries that are written one after the other. -/
@[grind ←] theorem Within.foldl {γ : Type} {xs : List γ} {f : Entries → γ → Entries} (h : Within L es)
    (hf : ∀ es, Within L es → ∀ x ∈ xs, Within L (f es x)) : Within L (xs.foldl f es) :=
  List.foldlRecOn xs f h hf

@[simp, grind =] theorem within_map {γ : Type} {xs : List γ} {f : γ → Value × Value} :
    Within L (xs.map f) ↔ ∀ x ∈ xs, (f x).1.Within L ∧ (f x).2.Within L := by
  rw [within_iff, List.forall_mem_map]

/-- Some of the entries under names, as members. -/
@[grind ←] theorem Within.filterMap {f : Value × Value → Option (String × Value)} (h : Within L es)
    (hf : ∀ e p, f e = some p → p.2 = e.2) : Members.Within L (es.filterMap f) := by
  refine Members.within_iff.2 fun p hp => ?_
  obtain ⟨e, he, hfe⟩ := List.mem_filterMap.1 hp
  rw [hf e p hfe]
  exact (h.of_mem he).2

@[simp, grind =] theorem within_append : Within L (es ++ fs) ↔ Within L es ∧ Within L fs := by
  simp only [within_iff, List.forall_mem_append]

@[simp, grind =] theorem within_reverse : Within L es.reverse ↔ Within L es := by
  simp only [within_iff, List.mem_reverse]

@[grind ←] theorem Within.dropLast (h : Within L es) : Within L es.dropLast :=
  within_iff.2 fun _ he => h.of_mem (List.mem_of_mem_dropLast he)

@[grind →] theorem Within.getLast? {e : Value × Value} (h : Within L es)
    (he : es.getLast? = some e) : e.1.Within L ∧ e.2.Within L :=
  h.of_mem (List.mem_of_getLast? he)

@[grind →] theorem Within.getElem? {e : Value × Value} (h : Within L es) {i : Nat}
    (he : es[i]? = some e) : e.1.Within L ∧ e.2.Within L :=
  h.of_mem (List.mem_of_getElem? he)

section

variable {xs : Array (Value × Value)} (h : Within L xs.toList)
include h

@[grind →] theorem Within.getElem?_array {e : Value × Value} {i : Nat} (he : xs[i]? = some e) :
    e.1.Within L ∧ e.2.Within L :=
  h.of_mem (Array.mem_toList_iff.2 (Array.mem_of_getElem? he))

@[grind →] theorem Within.back? {e : Value × Value} (he : xs.back? = some e) : e.1.Within L ∧ e.2.Within L :=
  h.of_mem (Array.mem_toList_iff.2 (Array.mem_of_back? he))

@[grind ←] theorem Within.extract {i j : Nat} : Within L (xs.extract i j).toList := by
  rw [Array.toList_extract, List.extract_eq_take_drop, within_iff]
  exact fun e he => h.of_mem (List.mem_of_mem_drop (List.mem_of_mem_take he))

end

end Entries

/-! ## What is left to do -/

/-- A variable is within limits. -/
@[simp, grind =] def Variable.Within (L : Limits) (x : Variable) : Prop :=
  L.address x.cell ∧ L.binds x.name

/-- The variables and the namespace that an environment looks names up in are within limits. -/
@[simp, grind =] def Env.Within (L : Limits) (env : Env) : Prop :=
  (∀ x ∈ env.visible, x.Within L) ∧ ∀ a ∈ env.namespaceAt, L.address a

/-- The surroundings of a script hold nothing that limits would have to allow. -/
theorem Env.top_within (L : Limits) : Env.top.Within L :=
  ⟨fun _ h => absurd h List.not_mem_nil, fun _ h => absurd h (Option.not_mem_none _)⟩

/-- What a receiver holds is within limits. -/
@[simp, grind =] def Receiver.Within (L : Limits) : Receiver → Prop
  | .drop | .ret => True
  | .assign l ts => L.line l ∧ ∀ t ∈ ts, t.Within L
  | .augment l t _ left => L.line l ∧ t.Within L ∧ left.Within L

/-- What a signal carries is within limits. -/
@[simp, grind =] def Signal.Within (L : Limits) : Signal → Prop
  | .proceed | .breakLoop | .continueLoop => True
  | .ret v | .sent v => v.Within L
  | .raised e => L.address e

/-- What a task holds is within limits. -/
@[simp, grind =] def Task.Within (L : Limits) : Task → Prop
  | .run body | .finally body => ∀ s ∈ body, s.Within L
  | .whileLoop l test body orelse =>
    L.line l ∧ test.Within L ∧ (∀ s ∈ body, s.Within L) ∧ ∀ s ∈ orelse, s.Within L
  | .forLoop l iterator t body orelse =>
    L.line l ∧ iterator.Within L ∧ t.Within L ∧ (∀ s ∈ body, s.Within L) ∧ ∀ s ∈ orelse, s.Within L
  | .tryBody handlers orelse => (∀ h ∈ handlers, h.Within L) ∧ ∀ s ∈ orelse, s.Within L
  | .handling id => ∀ n ∈ id, L.name n
  | .goOn signal => signal.Within L
  | .leaving l manager leave => L.line l ∧ manager.Within L ∧ leave.Within L
  | .withItems l items body =>
    L.line l ∧ (∀ i ∈ items, i.1.Within L ∧ ∀ t ∈ i.2, t.Within L) ∧ ∀ s ∈ body, s.Within L
  | .awaitSent l receiver => L.line l ∧ receiver.Within L
  | .delegate l iterator receiver => L.line l ∧ iterator.Within L ∧ receiver.Within L

/-! ## Objects -/

/-- What is left of the body of a generator is within limits. -/
@[simp, grind =] def GeneratorState.Within (L : Limits) : GeneratorState → Prop
  | .waiting tasks => ∀ t ∈ tasks, t.Within L
  | .running | .finished => True

/-- What an iterator has left to give is within limits. -/
@[simp, grind =] def Iterator.Within (L : Limits) : Iterator → Prop
  | .items _ rest => Value.AllWithin L rest
  | .listFrom a _ | .listBack a _ | .entries _ a _ _ => L.address a
  | .range _ _ _ => True
  | .enumerate v _ | .indexed v _ => v.Within L
  | .zip vs _ => Value.AllWithin L vs
  | .map f vs => f.Within L ∧ Value.AllWithin L vs
  | .filter f v | .untilEqual f v => f.Within L ∧ v.Within L

/-- The values that parameters take without an argument are within limits. -/
def ParamSlot.AllWithin (L : Limits) (ps : List ParamSlot) : Prop :=
  ∀ p ∈ ps, Value.IfWithin L p.default

/-- The line, the values, the body and the variables of a function are within limits. -/
@[simp, grind =] def Function.Within (L : Limits) (f : Function) : Prop :=
  L.line f.line ∧ ParamSlot.AllWithin L f.params ∧ (∀ s ∈ f.body, s.Within L) ∧
    (∀ id ∈ f.locals, L.binds id) ∧ (∀ x ∈ f.captured, x.Within L) ∧ f.members.Within L

/-- The classes behind a class and its members are within limits. -/
@[simp, grind =] def UserClass.Within (L : Limits) (c : UserClass) : Prop :=
  Value.AllWithin L c.bases ∧ Value.AllWithin L c.lineage ∧ c.members.Within L

/-- The class, the members and the values of an object are within limits, and so is the line on which it
was raised first, unless that was before any line had been worked on. -/
@[simp, grind =] def Instance.Within (L : Limits) (i : Instance) : Prop :=
  i.cls.Within L ∧ i.members.Within L ∧ Value.AllWithin L i.args ∧ ∀ l ∈ i.origin, l = 0 ∨ L.line l

/-- What an object holds is within limits. -/
@[simp, grind =] def Object.Within (L : Limits) : Object → Prop
  | .list xs => Value.AllWithin L xs.toList
  | .dict es => es.Within L
  | .set _ vs => Value.AllWithin L vs
  | .cell v => Value.IfWithin L v
  | .function f => f.Within L
  | .cls c => c.Within L
  | .instance i => i.Within L
  | .iterator i => i.Within L
  | .generator g => g.env.Within L ∧ g.state.Within L
  | .space names => (∀ p ∈ names, L.name p.1) ∧ names.Within L
  | .handedOut d => L.whole ∧ L.address d

/-- An object that was looked for is within limits if there is one. -/
@[simp, grind =] def Object.IfWithin (L : Limits) : Option Object → Prop
  | some o => o.Within L
  | none => True

end Stencil.Script
