import Stencil.Proofs.Data.Merging
import Stencil.Proofs.Script.Attributes
import Stencil.Proofs.Script.Contexts
import Stencil.Proofs.Script.Handed
import Stencil.Proofs.Script.Iterated
import Stencil.Proofs.Script.Shown

/-!
# Operations on contexts

A dictionary whose keys are strings holds bindings. A name that is data of any kind has a text, under
which values are written (`Denotes.run_str`). A name that is read must be the string itself: under a key
of another kind there is no binding, and a list or a mapping is not a key at all
(`Denotes.run_checkKey_bind`).

A context can be written to and read from in many ways. Each of them gives its answer from one map, and
leaves that map in the dictionary of the context: written are values under the texts of their names, and
nothing else changes the map (`responds`).
-/

namespace Stencil

/-- Whether a value can be a key is decided by what counts of it. -/
instance : DecidablePred Data.IsKey :=
  fun d => inferInstanceAs (Decidable (d.keyForm?.isSome = true))

namespace Script

/-! ## Bindings as entries -/

namespace Members

/-- The entries of a dictionary that holds bindings. -/
def entries (b : Members) : Entries :=
  b.map fun e => (.str e.1, e.2)

/-- The value under a name that is data: only strings are names of bindings. -/
def under? (b : Members) : Data → Option Value
  | .str s => b.find? s
  | _ => none

/-- There are as many entries as bindings. -/
@[simp] theorem length_entries (b : Members) : b.entries.length = b.length :=
  List.length_map _

/-- Writing an entry writes a binding. -/
theorem entries_insert (b : Members) (name : String) (v : Value) :
    b.entries.insert (.str name) v = (b.insert name v).entries := by
  induction b with
  | nil => rfl
  | cons e b ih =>
      obtain ⟨name', w⟩ := e
      rw [entries] at ih
      rw [entries, List.map_cons, Entries.insert, insert, ih]
      by_cases h : name' = name
      · rw [if_pos (Value.same_str.2 (by rw [h])), if_pos h]
        rfl
      · rw [if_neg fun hsame => h ?_, if_neg h]
        · rfl
        · cases Value.same_str.1 hsame
          rfl

/-- The value of an entry is that of a binding. -/
theorem named?_entries (b : Members) (name : String) : b.entries.named? name = b.find? name := by
  induction b with
  | nil => rfl
  | cons e b ih =>
      obtain ⟨name', w⟩ := e
      have hsame : (Value.str name').same (.str name) = (name == name') := by
        rw [Value.same, BEq.comm]
      rw [entries, Entries.named?, Entries.find?] at ih
      rw [entries, List.map_cons, Entries.named?, Entries.find?, find?, List.lookup_cons,
        List.find?_cons, hsame]
      cases name == name' with
      | true => rfl
      | false => exact ih

/-- Under a key that is no string there is no entry. -/
theorem find?_entries_of_ne {key : Value} (h : ∀ s, (Value.str s).same key = false) (b : Members) :
    b.entries.find? key = none := by
  rw [Entries.find?, Option.map_eq_none_iff, List.find?_eq_none]
  intro e he
  obtain ⟨binding, -, rfl⟩ := List.mem_map.1 he
  rw [h]
  exact Bool.false_ne_true

end Members

/-! ## Names that are data -/

/-- A computation for a name, unless the name cannot be a key. -/
def unlessUnhashable {α : Type} (d : Data) (x : Run α) : Run α :=
  if d.IsKey then x else Run.typeError s!"unhashable type: '{d.kind}'"

/-- A computation goes on, unless a name cannot be a key. -/
theorem run_bind_unlessUnhashable {α β : Type} {m : Machine} {x y : Run α} {f : α → Run β} {d : Data}
    (hx : x.run m = (unlessUnhashable d y).run m) :
    (x >>= f).run m = (unlessUnhashable d (y >>= f)).run m := by
  rw [EStateM.run_bind, hx, unlessUnhashable, unlessUnhashable]
  by_cases hkey : d.IsKey
  · rw [if_pos hkey, if_pos hkey, EStateM.run_bind]
  · rw [if_neg hkey, if_neg hkey]
    rfl

section

variable {m : Machine} {k n : Nat} {v : Value} {d : Data}

/-- The entry under a name is the binding under it. -/
theorem Denotes.find?_entries (h : Denotes m k v d) (b : Members) :
    b.entries.find? v = b.under? d := by
  cases h with
  | str s => exact b.named?_entries s
  | none | bool _ | int _ | float _ | list _ _ _ | dict _ _ _ =>
      exact b.find?_entries_of_ne fun _ => rfl

/-- A name is written as its text, unless an integer within it has too many digits. -/
theorem Denotes.run_str (h : Denotes m k v d) (hshowing : m.ShowsAbove k) (hn : d.height + 2 ≤ n) :
    ((operations n).str v).run m = (unlessLong d.isShort d.text).run m := by
  obtain ⟨n, rfl⟩ : ∃ n', n = n' + 2 := ⟨n - 2, by omega⟩
  have hrepr : (Show.repr (operations n) v).run m = (unlessLong d.isShort d.shown).run m :=
    h.run_repr d hshowing (Nat.le_of_add_le_add_right hn)
  cases h with
  | str s => rfl
  | none | bool b | float x | int i => exact hrepr
  | @list _ a _ _ hlt hobject hitems | @dict _ a _ _ hlt hobject hentries =>
      change (Show.str (operations (n + 1)) (.ref a)).run m = _
      rw [Show.str, EStateM.run_bind, Run.run_object?, hobject]
      exact hrepr

/-- A list or a mapping is not a key. -/
theorem Denotes.run_checkKey (h : Denotes m k v d) :
    (Item.checkKey v).run m = (unlessUnhashable d (return ())).run m := by
  cases h with
  | none | bool b | int i | float x | str s => rfl
  | @list _ a xs _ hlt hobject hitems =>
      have hkind : Item.unhashable? m (.ref a) = some "list" := by
        rw [Item.unhashable?, ← Machine.object?, hobject]
      rw [Item.checkKey, EStateM.run_bind, EStateM.run_get]
      dsimp only
      rw [hkind]
      rfl
  | @dict _ a es _ hlt hobject hentries =>
      have hkind : Item.unhashable? m (.ref a) = some "dict" := by
        rw [Item.unhashable?, ← Machine.object?, hobject]
      rw [Item.checkKey, EStateM.run_bind, EStateM.run_get]
      dsimp only
      rw [hkind]
      rfl

/-- Going on with the binding under a name that is looked up. -/
theorem Denotes.run_checkKey_bind (h : Denotes m k v d) {a : Address} {b : Members}
    (hobject : m.object? a = some (.dict b.entries)) {α : Type} (f : Option Value → Run α) :
    (do
      Item.checkKey v
      f ((← Run.entries a).find? v) : Run α).run m = (unlessUnhashable d (f (b.under? d))).run m := by
  rw [run_bind_unlessUnhashable h.run_checkKey, unlessUnhashable, unlessUnhashable]
  by_cases hkey : d.IsKey
  · rw [if_pos hkey, if_pos hkey, pure_bind, EStateM.run_bind, Run.run_entries hobject]
    dsimp only
    rw [h.find?_entries]
  · rw [if_neg hkey, if_neg hkey]

/-- A name that is no string is not the name of an attribute. -/
theorem Denotes.run_memberName (h : Denotes m k v d) (hstring : ∀ s, d ≠ .str s) :
    (ContextMethod.memberName v).run m =
      (Run.typeError s!"attribute name must be string, not '{d.kind}'" : Run String).run m := by
  have hkind := h.run_kindName
  cases h with
  | str s => exact absurd rfl (hstring s)
  | none | bool _ | int _ | float _ | list _ _ _ | dict _ _ _ =>
      rw [ContextMethod.memberName, EStateM.run_bind, hkind]
      intro s hs
      cases hs

end

end Script

end Stencil

namespace Stencil.Context

open Script

/-! ## Operations -/

/-- An operation on a context. Names are data; values are those of the machine. -/
inductive Operation where
  | set (name : Data) (v : Value)
  | setItem (name : Data) (v : Value)
  | get (name : Data) (alternative : Option Value)
  | getItem (name : Data)
  | contains (name : Data)
  | member (name : Data)
  | keys
  | items
  | length
  | iterate
  | setEscaper (e : Value)

/-- What an operation gives. -/
inductive Answer where
  | done
  | value (v : Value)
  | flag (b : Bool)
  | count (n : Int)
  | listing (vs : List Value)

namespace Operation

/-- Carries out an operation. -/
def perform (ops : Ops) (c : Value) : Operation → Run Answer
  | set name v => do
    let name ← Value.ofData name
    let _ ← invoke ops c "set" [name, v]
    return .done
  | setItem name v => do
    let name ← Value.ofData name
    Item.set ops c name v
    return .done
  | get name alternative => do
    let name ← Value.ofData name
    return .value (← invoke ops c "get" (name :: alternative.toList))
  | getItem name => do
    let name ← Value.ofData name
    return .value (← Item.get ops c name)
  | contains name => do
    let name ← Value.ofData name
    return .flag (← Item.contains ops c name)
  | member name => do
    let name ← Value.ofData name
    return .value (← Builtin.getMember ops [c, name])
  | keys => return .listing (← Iterate.items ops (← invoke ops c "keys" []))
  | items => return .listing (← Iterate.items ops (← invoke ops c "items" []))
  | length => return .count (← Builtin.length ops c)
  | iterate => return .listing (← Iterate.items ops c)
  | setEscaper e => do
    Member.set ops c "escaper" e
    return .done

/-- Carries out operations, one after the other, whether they raise exceptions or not. -/
def performAll (ops : Ops) (c : Value) (os : List Operation) : Run (List (Except Address Answer)) :=
  os.mapM fun o => tried (o.perform ops c)

/-- Whether JSON can denote the name in an operation. -/
def isJson : Operation → Bool
  | set name _ | setItem name _ | get name _ | getItem name | contains name | member name => name.isJson
  | keys | items | length | iterate | setEscaper _ => true

/-! ## The map -/

/-- The map after an operation. An integer with too many digits has no text, so that nothing is written
under a name with one. -/
def write (b : Members) : Operation → Members
  | set name v | setItem name v => if name.isShort then b.insert name.text v else b
  | _ => b

/-- The answer for a name, which must be able to be a key. -/
def keyed (name : Data) (a : Except ExceptionKind Answer) : Except ExceptionKind Answer :=
  if name.IsKey then a else .error .typeError

/-- The answer from a map, or the kind of the exception. The attributes of contexts have none. -/
def answer? (b : Members) : Operation → Option (Except ExceptionKind Answer)
  | set name _ | setItem name _ => some (if name.isShort then .ok .done else .error .valueError)
  | get name alternative =>
    some (keyed name (.ok (.value ((b.under? name).getD (alternative.getD .none)))))
  | getItem name => some (keyed name (((b.under? name).map (.ok ∘ .value)).getD (.error .keyError)))
  | contains name => some (keyed name (.ok (.flag (b.under? name).isSome)))
  | member (.str name) =>
    if name ∈ attributeNames then none
    else some <| match b.find? name with
      | some v => .ok (.value v)
      | none => .error .attributeError
  | member _ => some (.error .typeError)
  | keys | iterate => some (.ok (.listing (b.map fun e => .str e.1)))
  | items => some (.ok (.listing (b.map fun e => .tuple [.str e.1, e.2])))
  | length => some (.ok (.count b.length))
  | setEscaper _ => some (.ok .done)

end Operation

/-- Whether a result is an answer, or an exception of a kind. -/
def Matches (m : Machine) (r : Except Address Answer) : Except ExceptionKind Answer → Prop
  | .ok a => r = .ok a
  | .error kind => ∃ e i, r = .error e ∧ m.object? e = some (.instance i) ∧ i.cls = .kind (.exception kind)

/-- Whether a context keeps bindings in a dictionary, while no container is being written. -/
structure Holds (html : Bool) (m : Machine) (c vars : Address) (b : Members) : Prop where
  object : ∃ escaper, m.object? c = some (.instance (contextObject html vars escaper))
  bindings : m.object? vars = some (.dict b.entries)
  showing : m.showing = []

/-- Whether a machine keeps all objects but those of a context. -/
structure Spares (c vars : Address) (m m' : Machine) : Prop where
  size_le : m.heap.size ≤ m'.heap.size
  object? : ∀ a : Address, a.index < m.heap.size → a ≠ c → a ≠ vars → m'.object? a = m.object? a

section

variable {html : Bool} {m m' m'' : Machine} {c vars : Address} {b b' : Members}

/-- Further objects spare all others. -/
theorem Spares.of_extends (h : m.Extends m') : Spares c vars m m' where
  size_le := h.size_le
  object? _ ha _ _ := h.object? ha

/-- Objects that are kept twice are kept. -/
theorem Spares.trans (h : Spares c vars m m') (h' : Spares c vars m' m'') : Spares c vars m m'' where
  size_le := Nat.le_trans h.size_le h'.size_le
  object? a ha hc hvars :=
    (h'.object? a (Nat.lt_of_lt_of_le ha h.size_le) hc hvars).trans (h.object? a ha hc hvars)

/-- A context keeps its bindings when there are further objects. -/
theorem Holds.extends (h : Holds html m c vars b) (he : m.Extends m') : Holds html m' c vars b where
  object := by
    obtain ⟨escaper, hobject⟩ := h.object
    exact ⟨escaper, (he.object? (Machine.index_lt hobject)).trans hobject⟩
  bindings := (he.object? (Machine.index_lt h.bindings)).trans h.bindings
  showing := by
    obtain ⟨os, rfl⟩ := he
    exact h.showing

/-- No container is being written. -/
theorem Holds.showsAbove (h : Holds html m c vars b) (k : Nat) : m.ShowsAbove k := by
  intro a ha
  rw [h.showing] at ha
  cases ha

/-- The context and its dictionary are two objects. -/
theorem Holds.ne (h : Holds html m c vars b) : c ≠ vars := by
  obtain ⟨escaper, hobject⟩ := h.object
  exact Machine.ne_of_object? hobject h.bindings fun heq => by cases heq

/-! ## Responses -/

/-- Whether a computation with enough steps leaves a context with bindings, spares all other objects, and
gives what is expected of it, if anything is. -/
def Responds (html : Bool) (c vars : Address) (x : Nat → Run Answer) (m : Machine) (b : Members)
    (expected : Option (Except ExceptionKind Answer)) : Prop :=
  ∃ r m' enough, Holds html m' c vars b ∧ Spares c vars m m' ∧ (∀ a ∈ expected, Matches m' r a) ∧
    ∀ n, enough ≤ n → (tried (x n)).run m = .ok r m'

namespace Responds

variable {x : Nat → Run Answer} {expected : Option (Except ExceptionKind Answer)}

/-- A computation that makes at most further objects gives an answer. -/
theorem value (enough : Nat) {a : Answer} (h : Holds html m c vars b) (he : m.Extends m')
    (hrun : ∀ n, enough ≤ n → (x n).run m = .ok a m') : Responds html c vars x m b (some (.ok a)) := by
  refine ⟨.ok a, m', enough, h.extends he, .of_extends he, ?_, fun n hn => run_tried_ok (hrun n hn)⟩
  rintro _ ⟨⟩
  rfl

/-- A computation raises a new exception. -/
theorem raises (enough : Nat) {f : Failure} (h : Holds html m c vars b)
    (hrun : ∀ n, enough ≤ n → (x n).run m = (Run.fail f : Run Answer).run m) :
    Responds html c vars x m b (some (.error f.kind)) := by
  have he := Machine.Extends.push m (.instance ⟨.kind (.exception f.kind), [], f.args, some m.line⟩)
  refine ⟨.error m.fresh, _, enough, h.extends he, .of_extends he, ?_, fun n hn =>
    run_tried_raised (hrun n hn)⟩
  rintro _ ⟨⟩
  exact ⟨m.fresh, _, rfl, m.object?_push_fresh _, rfl⟩

/-- A computation that makes at most further objects ends. -/
theorem ends (enough : Nat) {r : Except Address Answer} (h : Holds html m c vars b) (he : m.Extends m')
    (hrun : ∀ n, enough ≤ n → (tried (x n)).run m = .ok r m') : Responds html c vars x m b none := by
  refine ⟨r, m', enough, h.extends he, .of_extends he, fun a ha => ?_, hrun⟩
  cases ha

/-- A computation makes the value of a name first. -/
theorem named {f : Nat → Value → Run Answer} {name : Data} (hjson : name.isJson)
    (h : ∀ v m', m.Extends m' → Denotes m' m'.heap.size v name →
      Responds html c vars (fun n => f n v) m' b expected) :
    Responds html c vars (fun n => do f n (← Value.ofData name)) m b expected := by
  obtain ⟨v, m₁, hmake, hext, hname⟩ := run_ofData name hjson m
  obtain ⟨r, m', enough, hholds, hspares, hanswer, hrun⟩ := h v m₁ hext hname
  refine ⟨r, m', enough, hholds, .trans (.of_extends hext) hspares, hanswer, fun n hn => ?_⟩
  rw [run_tried_bind hmake]
  exact hrun n hn

end Responds

/-! ## Methods -/

/-- A method of a context is called. -/
theorem Holds.run_invoke (h : Holds html m c vars b) {method : String}
    (hmethod : contextMethod? html method ≠ none) (args : List Value) (n : Nat) :
    (invoke (operations (n + 1)) (.ref c) method args).run m =
      (ContextMethod.call (operations n) (contextKind html) c method args []).run m := by
  obtain ⟨escaper, hobject⟩ := h.object
  rw [invoke, EStateM.run_bind, run_member_method hobject hmethod]
  exact run_call_context hobject method args n

/-- Writes a value under the text of a name. -/
def writeNamed (ops : Ops) (vars : Address) (name v : Value) : Run Unit := do
  Item.setEntry vars (.str (← ops.str name)) v

/-- The method that sets a value writes it under the text of its name. -/
theorem Holds.run_set (h : Holds html m c vars b) (name v : Value) (ops : Ops) :
    (ContextMethod.call ops (contextKind html) c "set" [name, v] []).run m = (do
      writeNamed ops vars name v
      return .none : Run Value).run m := by
  obtain ⟨escaper, hobject⟩ := h.object
  rw [ContextMethod.call, EStateM.run_bind, Run.run_object?, hobject]
  cases html <;> rfl

/-- Setting an item of a context writes it under the text of its name. -/
theorem Holds.run_setItem (h : Holds html m c vars b) (name v : Value) (ops : Ops) :
    (Item.set ops (.ref c) name v).run m = (writeNamed ops vars name v).run m := by
  obtain ⟨escaper, hobject⟩ := h.object
  rw [Item.set, EStateM.run_bind, Run.run_object?, hobject]
  cases html <;> rfl

/-- A value is written under the text of a name, if there is one. -/
theorem Holds.run_writeNamed (h : Holds html m c vars b) {name : Data} {key : Value} {k n : Nat}
    (hname : Denotes m k key name) (hn : name.height + 2 ≤ n) (v : Value) :
    (writeNamed (operations n) vars key v).run m =
      if name.isShort then .ok () (m.put vars (.dict (b.insert name.text v).entries))
      else (Run.valueError tooLongMessage : Run Unit).run m := by
  rw [writeNamed, EStateM.run_bind, hname.run_str (h.showsAbove k) hn]
  cases name.isShort with
  | false => rfl
  | true =>
      have hkey : (Item.checkKey (.str name.text)).run m = .ok () m := rfl
      rw [if_pos rfl, unlessLong, if_pos rfl, EStateM.run_pure]
      dsimp only
      rw [Item.setEntry, EStateM.run_bind, hkey]
      dsimp only
      rw [Run.run_change h.bindings, ← Members.entries_insert]

/-- Bindings that are written are kept. -/
theorem Holds.put (h : Holds html m c vars b) (b' : Members) :
    Holds html (m.put vars (.dict b'.entries)) c vars b' where
  object := by
    obtain ⟨escaper, hobject⟩ := h.object
    exact ⟨escaper, (m.object?_put_of_ne vars c _ h.ne.symm).trans hobject⟩
  bindings := Machine.object?_put_self h.bindings _
  showing := (m.showing_put vars _).trans h.showing

/-- Writing the bindings of a context spares all other objects. -/
theorem Spares.put_bindings (o : Object) : Spares c vars m (m.put vars o) where
  size_le := Nat.le_of_eq (m.size_put vars o).symm
  object? _ _ _ hvars := m.object?_put_of_ne vars _ o (Ne.symm hvars)

/-- A value is written, unless its name has no text. -/
theorem Responds.writes (enough : Nat) {x : Nat → Run Answer} {name : Data} {v : Value}
    (h : Holds html m c vars b)
    (hrun : ∀ n, enough ≤ n → (x n).run m =
      if name.isShort then .ok .done (m.put vars (.dict (b.insert name.text v).entries))
      else (Run.valueError tooLongMessage : Run Answer).run m) :
    Responds html c vars x m (if name.isShort then b.insert name.text v else b)
      (some (if name.isShort then .ok .done else .error .valueError)) := by
  cases hshort : name.isShort with
  | false =>
      rw [hshort] at hrun
      exact .raises enough h hrun
  | true =>
      rw [hshort] at hrun
      refine ⟨.ok .done, _, enough, h.put _, .put_bindings _, ?_, fun n hn => run_tried_ok (hrun n hn)⟩
      rintro _ ⟨⟩
      rfl

/-- Setting a value. -/
theorem responds_set (h : Holds html m c vars b) {name : Data} (hjson : name.isJson) (v : Value) :
    Responds html c vars (fun n => (Operation.set name v).perform (operations n) (.ref c)) m
      (Operation.write b (.set name v)) (Operation.answer? b (.set name v)) := by
  refine .named hjson fun key m' he hname => .writes (name.height + 3) (h.extends he)
    fun n hn => ?_
  obtain ⟨n, rfl⟩ := Nat.exists_eq_add_of_le' (Nat.le_trans (Nat.le_add_left 1 _) hn)
  have h' := h.extends he
  have hwrite := h'.run_writeNamed hname (Nat.le_of_succ_le_succ hn) v
  rw [EStateM.run_bind, h'.run_invoke (contextMethod?_ne_none (by simp)), h'.run_set, EStateM.run_bind,
    hwrite]
  cases name.isShort <;> rfl

/-- Setting an item. -/
theorem responds_setItem (h : Holds html m c vars b) {name : Data} (hjson : name.isJson) (v : Value) :
    Responds html c vars (fun n => (Operation.setItem name v).perform (operations n) (.ref c)) m
      (Operation.write b (.setItem name v)) (Operation.answer? b (.setItem name v)) := by
  refine .named hjson fun key m' he hname => .writes (name.height + 2) (h.extends he)
    fun n hn => ?_
  have h' := h.extends he
  rw [EStateM.run_bind, h'.run_setItem, h'.run_writeNamed hname hn]
  cases name.isShort <;> rfl

/-! ## Reading -/

/-- A computation goes on for a name, unless the name cannot be a key. -/
theorem Responds.keyed (enough : Nat) {x : Nat → Run Answer} {y : Run Answer} {name : Data}
    {a : Except ExceptionKind Answer} (h : Holds html m c vars b)
    (hrun : ∀ n, enough ≤ n → (x n).run m = (unlessUnhashable name y).run m)
    (hy : Responds html c vars (fun _ => y) m b (some a)) :
    Responds html c vars x m b (some (Operation.keyed name a)) := by
  rw [Operation.keyed]
  by_cases hkey : name.IsKey
  · obtain ⟨r, m', enough', hholds, hspares, hanswer, hend⟩ := hy
    rw [if_pos hkey]
    refine ⟨r, m', max enough enough', hholds, hspares, hanswer, fun n hn => ?_⟩
    have hx := hrun n (Nat.le_trans (Nat.le_max_left ..) hn)
    rw [unlessUnhashable, if_pos hkey] at hx
    exact (run_tried_congr hx).trans (hend n (Nat.le_trans (Nat.le_max_right ..) hn))
  · rw [if_neg hkey]
    refine .raises enough (f := .of .typeError s!"unhashable type: '{name.kind}'") h fun n hn =>
      (hrun n hn).trans ?_
    rw [unlessUnhashable, if_neg hkey]
    rfl

/-- Getting a value. -/
theorem responds_get (h : Holds html m c vars b) {name : Data} (hjson : name.isJson)
    (alternative : Option Value) :
    Responds html c vars (fun n => (Operation.get name alternative).perform (operations n) (.ref c)) m b
      (Operation.answer? b (.get name alternative)) := by
  refine .named hjson fun key m' he hname => ?_
  have h' := h.extends he
  have hlookup : (DictMethod.lookup? vars key).run m' =
      (unlessUnhashable name (return b.under? name)).run m' := hname.run_checkKey_bind h'.bindings pure
  have hcall (n : Nat) : (ContextMethod.call (operations n) (contextKind html) c "get"
      (key :: alternative.toList) []).run m' = (do
        return (← DictMethod.lookup? vars key).getD (alternative.getD .none) : Run Value).run m' := by
    obtain ⟨escaper, hobject⟩ := h'.object
    rw [ContextMethod.call, EStateM.run_bind, Run.run_object?, hobject]
    cases html <;> cases alternative <;> rfl
  refine .keyed 1 h' (fun n hn => ?_) (.value 0 h' (.refl m') fun _ _ => rfl)
  obtain ⟨n, rfl⟩ := Nat.exists_eq_add_of_le' hn
  have hmethod : contextMethod? html "get" ≠ none := contextMethod?_ne_none (by simp)
  refine run_bind_unlessUnhashable (y := return (b.under? name).getD (alternative.getD .none)) ?_
  exact ((h'.run_invoke hmethod _ n).trans (hcall n)).trans (run_bind_unlessUnhashable hlookup)

/-- Getting an item. -/
theorem responds_getItem (h : Holds html m c vars b) {name : Data} (hjson : name.isJson) :
    Responds html c vars (fun n => (Operation.getItem name).perform (operations n) (.ref c)) m b
      (Operation.answer? b (.getItem name)) := by
  refine .named hjson fun key m' he hname => ?_
  have h' := h.extends he
  have hget (ops : Ops) : (Item.get ops (.ref c) key).run m' = (Item.entry vars key).run m' := by
    obtain ⟨escaper, hobject⟩ := h'.object
    rw [Item.get, EStateM.run_bind, Run.run_object?, hobject]
    cases html <;> rfl
  have hentry := hname.run_checkKey_bind h'.bindings fun
    | some v => return v
    | none => (Run.fail ⟨.keyError, [key]⟩ : Run Value)
  refine .keyed 0 h'
    (fun n _ => run_bind_unlessUnhashable ((hget (operations n)).trans hentry)) ?_
  cases b.under? name with
  | some v => exact .value 0 h' (.refl m') fun _ _ => rfl
  | none => exact .raises (f := ⟨.keyError, [key]⟩) 0 h' fun _ _ => rfl

/-- Looking whether a name is bound. -/
theorem responds_contains (h : Holds html m c vars b) {name : Data} (hjson : name.isJson) :
    Responds html c vars (fun n => (Operation.contains name).perform (operations n) (.ref c)) m b
      (Operation.answer? b (.contains name)) := by
  refine .named hjson fun key m' he hname => ?_
  have h' := h.extends he
  have hcontains (ops : Ops) : (Item.contains ops (.ref c) key).run m' = (do
      Item.checkKey key
      return ((← Run.entries vars).find? key).isSome : Run Bool).run m' := by
    obtain ⟨escaper, hobject⟩ := h'.object
    rw [Item.contains, EStateM.run_bind, Run.run_object?, hobject]
    cases html <;> rfl
  have hlookup := hname.run_checkKey_bind h'.bindings fun v => (return v.isSome : Run Bool)
  exact .keyed 0 h'
    (fun n _ => run_bind_unlessUnhashable ((hcontains (operations n)).trans hlookup))
    (.value 0 h' (.refl m') fun _ _ => rfl)

/-- Reading an attribute. -/
theorem responds_member (h : Holds html m c vars b) {name : Data} (hjson : name.isJson) :
    Responds html c vars (fun n => (Operation.member name).perform (operations n) (.ref c)) m b
      (Operation.answer? b (.member name)) := by
  refine .named hjson fun key m' he hname => ?_
  have h' := h.extends he
  by_cases hstring : ∃ s, name = .str s
  · obtain ⟨s, rfl⟩ := hstring
    cases hname
    obtain ⟨escaper, hobject⟩ := h'.object
    rw [Operation.answer?]
    by_cases hs : s ∈ attributeNames
    · obtain ⟨r, m'', he', hrun⟩ := exists_run_member hobject h'.bindings s
      rw [if_pos hs]
      refine .ends (r := r.map .value) 1 h' he' fun n hn => ?_
      obtain ⟨n, rfl⟩ := Nat.exists_eq_add_of_le' hn
      exact run_tried_map Answer.value (hrun n)
    · have hmember := run_member_binding hobject h'.bindings hs
      rw [Members.named?_entries] at hmember
      rw [if_neg hs]
      cases hfound : b.find? s with
      | some v =>
          rw [hfound] at hmember
          refine .value 1 h' (.refl m') fun n hn => ?_
          obtain ⟨n, rfl⟩ := Nat.exists_eq_add_of_le' hn
          have hget : (Builtin.getMember (operations (n + 1)) [.ref c, .str s]).run m' = .ok v m' := hmember n
          rw [EStateM.run_bind, hget]
          rfl
      | none =>
          rw [hfound] at hmember
          refine .raises (f := ⟨.attributeError, [.str s]⟩) 1 h' fun n hn => ?_
          obtain ⟨n, rfl⟩ := Nat.exists_eq_add_of_le' hn
          have hget : (Builtin.getMember (operations (n + 1)) [.ref c, .str s]).run m' =
              (Run.fail ⟨.attributeError, [.str s]⟩ : Run Value).run m' := hmember n
          rw [EStateM.run_bind, hget]
          rfl
  · have hstring : ∀ s, name ≠ .str s := fun s heq => hstring ⟨s, heq⟩
    have hanswer : Operation.answer? b (.member name) = some (.error .typeError) := by
      cases name with
      | str s => exact absurd rfl (hstring s)
      | _ => rfl
    rw [hanswer]
    refine .raises (f := .of .typeError s!"attribute name must be string, not '{name.kind}'") 0 h'
      fun n _ => ?_
    rw [Builtin.getMember, EStateM.run_bind, EStateM.run_bind, hname.run_memberName hstring]
    rfl

/-- Listing the bindings by a view. -/
theorem Responds.lists (enough : Nat) {x : Nat → Run Answer} (h : Holds html m c vars b) {what : View}
    (hrun : ∀ n, enough ≤ n → (x n).run m =
      (do return .listing (← drained (operations n) what vars) : Run Answer).run m) :
    Responds html c vars x m b (some (.ok (.listing (b.entries.map (Iterate.shown what))))) := by
  obtain ⟨i, hdrained⟩ := run_drained h.bindings what
  refine .value (max enough (b.entries.length + 2)) h (.push m (.iterator i)) fun n hn => ?_
  rw [hrun n (Nat.le_trans (Nat.le_max_left ..) hn), EStateM.run_bind,
    hdrained n (Nat.le_trans (Nat.le_max_right ..) hn)]
  rfl

/-- Listing what a method of a context gives. -/
theorem Responds.lists_method (h : Holds html m c vars b) {method : String} {what : View}
    (hmethod : contextMethod? html method ≠ none)
    (hview : ∀ ops, (ContextMethod.call ops (contextKind html) c method [] []).run m =
      .ok (.view what vars) m) :
    Responds html c vars (fun n => do
      return .listing (← Iterate.items (operations n) (← invoke (operations n) (.ref c) method []))) m b
        (some (.ok (.listing (b.entries.map (Iterate.shown what))))) := by
  refine .lists 1 h fun n hn => ?_
  obtain ⟨n, rfl⟩ := Nat.exists_eq_add_of_le' hn
  rw [EStateM.run_bind, h.run_invoke hmethod, hview]
  rfl

/-- Listing the names. -/
theorem responds_keys (h : Holds html m c vars b) :
    Responds html c vars (fun n => Operation.keys.perform (operations n) (.ref c)) m b
      (Operation.answer? b .keys) := by
  have hnames : b.entries.map (Iterate.shown .keys) = b.map fun e => .str e.1 := List.map_map ..
  rw [Operation.answer?, ← hnames]
  refine .lists_method h (contextMethod?_ne_none (by simp)) fun ops => ?_
  obtain ⟨escaper, hobject⟩ := h.object
  rw [ContextMethod.call, EStateM.run_bind, Run.run_object?, hobject]
  cases html <;> rfl

/-- Listing the bindings. -/
theorem responds_items (h : Holds html m c vars b) :
    Responds html c vars (fun n => Operation.items.perform (operations n) (.ref c)) m b
      (Operation.answer? b .items) := by
  have hpairs : b.entries.map (Iterate.shown .items) = b.map fun e => .tuple [.str e.1, e.2] :=
    List.map_map ..
  rw [Operation.answer?, ← hpairs]
  refine .lists_method h (contextMethod?_ne_none (by simp)) fun ops => ?_
  obtain ⟨escaper, hobject⟩ := h.object
  rw [ContextMethod.call, EStateM.run_bind, Run.run_object?, hobject]
  cases html <;> rfl

/-- Iterating over a context. -/
theorem responds_iterate (h : Holds html m c vars b) :
    Responds html c vars (fun n => Operation.iterate.perform (operations n) (.ref c)) m b
      (Operation.answer? b .iterate) := by
  have hstart (ops : Ops) : (Iterate.start ops (.ref c)).run m = (Iterate.overEntries .keys vars).run m := by
    obtain ⟨escaper, hobject⟩ := h.object
    rw [Iterate.start, EStateM.run_bind, Run.run_object?, hobject]
    cases html <;> rfl
  have hitems (ops : Ops) : (Iterate.items ops (.ref c)).run m = (drained ops .keys vars).run m := by
    have heq : Iterate.items ops (.ref c) = (do
        return (← ops.drain (← Iterate.start ops (.ref c))).toList) := rfl
    rw [heq, drained, EStateM.run_bind, EStateM.run_bind, hstart]
  have hnames : b.entries.map (Iterate.shown .keys) = b.map fun e => .str e.1 := List.map_map ..
  rw [Operation.answer?, ← hnames]
  refine .lists 0 h fun n _ => ?_
  rw [Operation.perform, EStateM.run_bind, EStateM.run_bind, hitems]

/-- Counting the bindings. -/
theorem responds_length (h : Holds html m c vars b) :
    Responds html c vars (fun n => Operation.length.perform (operations n) (.ref c)) m b
      (Operation.answer? b .length) := by
  have hlength (ops : Ops) : (Builtin.length ops (.ref c)).run m = .ok b.length m := by
    obtain ⟨escaper, hobject⟩ := h.object
    have hentries : (do return (← Run.entries vars).length : Run Int).run m = .ok b.length m := by
      rw [EStateM.run_bind, Run.run_entries h.bindings]
      exact congrArg (EStateM.Result.ok · m) (congrArg Int.ofNat b.length_entries)
    rw [← hentries, Builtin.length, EStateM.run_bind, Run.run_object?, hobject]
    cases html <;> rfl
  refine .value 0 h (.refl m) fun n _ => ?_
  rw [Operation.perform, EStateM.run_bind, hlength]
  rfl

/-- Setting the escaper. -/
theorem responds_setEscaper (h : Holds html m c vars b) (e : Value) :
    Responds html c vars (fun n => (Operation.setEscaper e).perform (operations n) (.ref c)) m b
      (Operation.answer? b (.setEscaper e)) := by
  obtain ⟨escaper, hobject⟩ := h.object
  have hset (ops : Ops) : (Member.set ops (.ref c) "escaper" e).run m =
      .ok () (m.put c (.instance (contextObject html vars (some e)))) := by
    have hmembers : (contextObject html vars escaper).members.insert "escaper" e =
        (contextObject html vars (some e)).members := by
      cases escaper <;> rfl
    have hspecial := run_special_exception hobject ops "__setattr__" [.str "escaper", e]
    have hexception : (Run.isExceptionClass (.kind (.context (contextKind html)))).run m = .ok _ m :=
      run_isSubclass_kind (.context (contextKind html)) (.exception .baseException) m
    have huser := run_userMember_kind (.context (contextKind html)) "escaper" m
    rw [Member.set, EStateM.run_bind, Run.run_object?, hobject]
    cases html
    all_goals
      simp only [contextObject, contextKind, Bool.false_eq_true, if_false, if_true] at *
      rw [EStateM.run_bind, huser]
      dsimp only
      rw [EStateM.run_bind, hspecial]
      dsimp only
      rw [EStateM.run_bind, hexception]
      dsimp only
      rw [if_neg (by simp), hmembers]
      rfl
  refine ⟨.ok .done, m.put c (.instance (contextObject html vars (some e))), 0, ⟨⟨some e, ?_⟩, ?_, ?_⟩,
    ⟨?_, ?_⟩, ?_, fun n _ => run_tried_ok ?_⟩
  · exact Machine.object?_put_self hobject _
  · exact (m.object?_put_of_ne c vars _ h.ne).trans h.bindings
  · exact (m.showing_put c _).trans h.showing
  · exact Nat.le_of_eq (m.size_put c _).symm
  · exact fun a _ hc _ => m.object?_put_of_ne c a _ (Ne.symm hc)
  · rintro _ ⟨⟩
    rfl
  · dsimp only [Operation.perform]
    rw [EStateM.run_bind, hset]
    rfl

/-- An operation on a context gives its answer from the map, and changes the map as it should. -/
theorem responds (h : Holds html m c vars b) (o : Operation) (hjson : o.isJson) :
    Responds html c vars (fun n => o.perform (operations n) (.ref c)) m (o.write b) (o.answer? b) := by
  cases o with
  | set name v => exact responds_set h hjson v
  | setItem name v => exact responds_setItem h hjson v
  | get name alternative => exact responds_get h hjson alternative
  | getItem name => exact responds_getItem h hjson
  | contains name => exact responds_contains h hjson
  | member name => exact responds_member h hjson
  | keys => exact responds_keys h
  | items => exact responds_items h
  | length => exact responds_length h
  | iterate => exact responds_iterate h
  | setEscaper e => exact responds_setEscaper h e

end

end Stencil.Context
