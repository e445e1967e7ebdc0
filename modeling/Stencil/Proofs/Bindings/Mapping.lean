import Stencil.Bindings
import Stencil.Proofs.Data.Merging

/-!
# Mappings that documents hold

The bindings that a document gives are a mapping: their keys are scalars, and no two of them are the same
key (`distinctKeys_bindingsOfText`).
-/

namespace Stencil

namespace Data

/-- Writing an entry leaves the keys distinct. -/
theorem DistinctKeys.setEntry {es : List (Data × Data)} {k : Data} (h : DistinctKeys (es.map (·.1)))
    (hk : k.IsKey) (v : Data) : DistinctKeys ((setEntry k v es).map (·.1)) := by
  by_cases hmem : ∃ e ∈ es, keyForm? e.1 = keyForm? k
  · have hkeys : (es.map fun e => if keyForm? e.1 = keyForm? k then (e.1, v) else e).map (·.1) =
        es.map (·.1) := by
      rw [List.map_map]
      exact List.map_congr_left fun e _ => by
        dsimp only [Function.comp_apply]
        split <;> rfl
    rw [setEntry_of_mem h hmem, hkeys]
    exact h
  · have hnew : ∀ e ∈ es, keyForm? e.1 ≠ keyForm? k := fun e he hsame => hmem ⟨e, he, hsame⟩
    rw [setEntry_of_not_mem (fun e he => h.isKey _ (List.mem_map_of_mem he)) hnew, List.map_append]
    refine h.concat hk fun l hl => ?_
    obtain ⟨e, he, rfl⟩ := List.mem_map.1 hl
    exact hnew e he

/-- Writing entries with scalar keys leaves the keys distinct. -/
theorem DistinctKeys.merged {D C : List (Data × Data)} (h : DistinctKeys (D.map (·.1)))
    (hC : ∀ e ∈ C, e.1.IsKey) : DistinctKeys ((merged D C).map (·.1)) := by
  induction C generalizing D with
  | nil => exact h
  | cons c C ih =>
      exact ih (h.setEntry (hC c List.mem_cons_self) c.2) fun e he => hC e (List.mem_cons_of_mem _ he)

/-- No keys. -/
theorem distinctKeys_nil : DistinctKeys [] :=
  ⟨nofun, List.nodup_nil⟩

/-- A mapping that is written over none. -/
theorem merged_nil {C : List (Data × Data)} (h : DistinctKeys (C.map (·.1))) : merged [] C = C := by
  rw [merged_eq (D := []) distinctKeys_nil h, List.map_nil, List.nil_append]
  exact List.filter_eq_self.2 fun _ _ => rfl

/-- Whether data, if it is a mapping, has distinct keys. -/
def Proper (d : Data) : Prop :=
  ∀ es, d = .dict es → DistinctKeys (es.map (·.1))

end Data

open Data (DistinctKeys IsKey Proper)

/-! ## Computations that may fail -/

/-- Whether all that a computation can give is as a condition says. -/
def Yields {ε α : Type} (Q : α → Prop) (x : Except ε α) : Prop :=
  ∀ a, x = .ok a → Q a

namespace Yields

variable {ε α β : Type} {P : α → Prop} {Q : β → Prop} {x : Except ε α}

/-- A result. -/
theorem ok {a : α} (h : P a) : Yields P (.ok a : Except ε α) := by
  intro b hb
  cases hb
  exact h

/-- A failure. -/
theorem error (e : ε) : Yields P (.error e : Except ε α) :=
  nofun

/-- A function of a result. -/
theorem map {f : α → β} (h : Yields P x) (hf : ∀ a, P a → Q (f a)) : Yields Q (x.map f) := by
  cases x with
  | error e => exact nofun
  | ok a => exact .ok (hf a (h a rfl))

/-- A computation that goes on with a result. -/
theorem bind {f : α → Except ε β} (h : Yields P x) (hf : ∀ a, P a → Yields Q (f a)) :
    Yields Q (x >>= f) := by
  cases x with
  | error e => exact nofun
  | ok a => exact hf a (h a rfl)

/-- A computation goes on with any result. -/
theorem next {f : α → Except ε β} (hf : ∀ a, Yields Q (f a)) : Yields Q (x >>= f) :=
  bind (fun _ _ => trivial : Yields (fun _ => True) x) fun a _ => hf a

end Yields

/-! ## YAML -/

namespace Yaml

/-- The data that a scalar stands for is a scalar. -/
theorem yields_scalarData (tag : Tag) (s : String) : Yields IsKey (scalarData tag s) := by
  have hany {α : Type} (x : Except Fault α) : Yields (fun _ => True) x := fun _ _ => trivial
  unfold scalarData
  split
  · exact .ok rfl
  · exact (hany _).map fun _ _ => rfl
  · exact (hany _).map fun _ _ => rfl
  · exact (hany _).map fun _ _ => rfl
  · exact .ok rfl
  · split
    · exact .ok rfl
    · exact .error _
  · split
    · next t _ =>
        rw [Time.toData]
        split
        · exact .error _
        · exact .ok rfl
    · exact .error _
  · exact .error _

/-- A computation at a depth. -/
theorem yields_lift {α : Type} {P : α → Prop} {x : Except Fault α} (h : Yields P x) (depth : Nat) :
    Yields P (Deep.lift depth x) := by
  cases x with
  | error fault => exact .error _
  | ok a => exact .ok (h a rfl)

/-- Two computations. -/
theorem yields_both {α β γ : Type} {P : α → Prop} {Q : β → Prop} {R : γ → Prop} {f : α → β → γ}
    {x : Deep α} {y : Deep β} (hx : Yields P x) (hy : Yields Q y) (hf : ∀ a b, P a → Q b → R (f a b)) :
    Yields R (Deep.both f x y) := by
  cases x with
  | ok a => cases y with
    | ok b => exact .ok (hf a b (hx a rfl) (hy b rfl))
    | error e => exact .error _
  | error e => cases y with
    | ok b => exact .error _
    | error e' =>
        rw [Deep.both]
        split <;> exact .error _

/-- A scalar node stands for a scalar. -/
theorem yields_toData_scalar (fuel depth : Nat) (tag : Tag) (s : String) :
    Yields IsKey ((Node.scalar tag s).toData fuel depth) := by
  cases fuel with
  | zero => exact .error _
  | succ fuel =>
      rw [Node.toData]
      split
      · exact yields_lift (yields_scalarData _ _) _
      · exact .error _

/-- The keys of entries are scalars. -/
theorem yields_entriesData {read : Node → Deep Data}
    (h : ∀ tag s, Yields IsKey (read (.scalar tag s))) (depth : Nat) (entries : List (Node × Node)) :
    Yields (fun es => ∀ e ∈ es, e.1.IsKey) (entriesData depth read entries) := by
  induction entries with
  | nil => exact .ok nofun
  | cons entry entries ih =>
      obtain ⟨k, v⟩ := entry
      have hvalue : Yields (fun _ => True) (read v) := fun _ _ => trivial
      refine yields_both (P := fun e => e.1.IsKey) ?_ ih fun e es he hes =>
        List.forall_mem_cons.2 ⟨he, hes⟩
      refine yields_both (P := IsKey) ?_ hvalue fun a b ha _ => ha
      cases k with
      | scalar tag s => exact h tag s
      | sequence | mapping => exact .error _

/-- The mapping that a document holds has distinct keys. -/
theorem yields_toData (fuel depth : Nat) (n : Node) :
    Yields Proper (n.toData fuel depth) := by
  cases fuel with
  | zero => exact .error _
  | succ fuel =>
      unfold Node.toData
      dsimp only
      split
      · exact Yields.map (fun _ _ => trivial : Yields (fun _ => True) _) fun _ _ es hes => nomatch hes
      · exact .next fun _ => .ok fun es hes => nomatch hes
      · exact .next fun _ => .ok fun es hes => nomatch hes
      · refine Yields.map (P := fun es => DistinctKeys (es.map (·.1))) ?_ fun es h es' hes' => ?_
        · split
          · exact .error _
          · exact (yields_entriesData (yields_toData_scalar fuel _) _ _).map fun es hes =>
              DistinctKeys.merged (D := []) Data.distinctKeys_nil hes
        · cases hes'
          exact h
      · exact Yields.map (fun _ _ => trivial : Yields (fun _ => True) _) fun _ _ es hes => nomatch hes
      · split
        · refine yields_lift (fun d hd => ?_) _
          have hkey := yields_scalarData _ _ d hd
          rintro es rfl
          cases hkey
        · exact .error _

/-- A document. -/
theorem yields_read (t : Text) : Yields Proper (read t) := by
  unfold read
  refine .next fun n => ?_
  split
  · exact .ok nofun
  · split
    · next d hd => exact .ok (yields_toData _ _ _ d hd)
    · exact .error _

end Yaml

/-! ## JSON -/

namespace Json

/-- An object. -/
theorem yields_members (fuel : Nat) (c : Cursor) (acc : List (Data × Data))
    (h : DistinctKeys (acc.map (·.1))) : Yields (fun r => Proper r.1) (members fuel c acc) := by
  induction fuel generalizing c acc with
  | zero => exact .error _
  | succ fuel ih =>
      unfold members
      split
      · refine .next fun ⟨name, c'⟩ => ?_
        dsimp only
        split
        · refine .next fun ⟨d, c''⟩ => ?_
          have hname : IsKey (.str name) := rfl
          have hacc : DistinctKeys ((Data.setEntry (.str name) d acc).map (·.1)) := h.setEntry hname d
          dsimp only
          split
          · refine .ok fun es hes => ?_
            cases hes
            exact hacc
          · exact ih _ _ hacc
          · exact .error _
        · exact .error _
      · exact .error _

/-- An array is no mapping. -/
theorem yields_elements (fuel : Nat) (c : Cursor) (acc : List Data) :
    Yields (fun r => Proper r.1) (elements fuel c acc) := by
  induction fuel generalizing c acc with
  | zero => exact .error _
  | succ fuel ih =>
      unfold elements
      refine .next fun ⟨d, c'⟩ => ?_
      dsimp only
      split
      · exact .ok nofun
      · exact ih _ _
      · exact .error _

/-- A number is no mapping. -/
theorem yields_number (c : Cursor) : Yields (fun r => Proper r.1) (number c) := by
  unfold number
  dsimp only
  repeat' split
  all_goals first | exact .ok nofun | exact nofun

/-- A word stands for no mapping. -/
theorem proper_words : ∀ w ∈ words, Proper w.2 := by
  simp only [words, List.forall_mem_cons]
  exact ⟨nofun, nofun, nofun, nofun, nofun, nofun, nofun⟩

/-- A value. -/
theorem yields_value (fuel : Nat) (c : Cursor) : Yields (fun r => Proper r.1) (value fuel c) := by
  cases fuel with
  | zero => exact .error _
  | succ fuel =>
      unfold value
      split
      · exact .error _
      · exact .next fun _ => .ok nofun
      · dsimp only
        split
        · exact .ok nofun
        · exact yields_elements _ _ _
      · dsimp only
        split
        · refine .ok fun es hes => ?_
          cases hes
          exact Data.distinctKeys_nil
        · exact yields_members _ _ _ Data.distinctKeys_nil
      · split
        · next w d hfind => exact .ok (proper_words _ (List.mem_of_find?_eq_some hfind))
        · exact yields_number c

/-- A document. -/
theorem yields_read (t : Text) : Yields Proper (read t) := by
  unfold read
  split
  · exact nofun
  · refine Yields.bind (yields_value _ _) fun ⟨d, c⟩ hd => ?_
    dsimp only
    split
    · exact .ok hd
    · exact .error _

end Json

/-- The bindings that a document gives have distinct keys. -/
theorem distinctKeys_bindingsOfText {origin : String} {form : Notation} {t : Text}
    {es : List (Data × Data)} (h : bindingsOfText origin form t = .ok es) :
    DistinctKeys (es.map (·.1)) := by
  have hdocument : Yields Proper (documentOfText origin form t) := by
    unfold documentOfText
    cases form with
    | json =>
        dsimp only
        split
        · next d hd => exact .ok (Json.yields_read t d hd)
        · exact .error _
        · exact .error _
    | yaml =>
        dsimp only
        split
        · next d hd => exact .ok (Yaml.yields_read t d hd)
        · exact .error _
        · exact .error _
  have hbindings : Yields (fun es => DistinctKeys (es.map (·.1))) (bindingsOfText origin form t) := by
    refine Yields.bind hdocument fun d hd => ?_
    unfold bindingsOfData
    split
    · exact .ok Data.distinctKeys_nil
    · next entries => exact .ok (hd entries rfl)
    · exact .error _
  exact hbindings es h

end Stencil
