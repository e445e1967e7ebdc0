import Mathlib.Data.List.Nodup
import Stencil.Data

/-!
# Writing one mapping over another

The keys of a mapping are scalars, and no two of them are the same key. Where a mapping is written over
another, the keys of the latter keep their places and take the values of the former, and the further keys
go behind (`Data.merged_eq`). Two keys with the same text need not be the same key, nor have two keys that
are the same one text, so the last value under a text is not always the one of the mapping that is written
last (`Data.overrides_iff`).
-/

namespace Stencil.Data

/-! ## Keys -/

/-- What counts of a key when keys are compared. -/
inductive KeyForm where
  | none
  | number (x : KeyNumber)
  | str (s : String)
  | other (kind plain : String)
  deriving DecidableEq

/-- What counts of a scalar as a key. Lists, mappings and functions are no keys. -/
def keyForm? : Data → Option KeyForm
  | none => some .none
  | str s => some (.str s)
  | other k s _ => some (.other k s)
  | d => (keyNumber? d).map .number

/-- Whether a data tree can be a key. -/
def IsKey (d : Data) : Prop :=
  (keyForm? d).isSome

/-- Two keys are the same if what counts of them is. -/
theorem sameKey_iff {k l : Data} (hk : k.IsKey) : sameKey k l ↔ keyForm? k = keyForm? l := by
  cases k <;> cases l <;> simp [IsKey, sameKey, keyForm?, keyNumber?] at hk ⊢

/-- The text of a key. -/
def text : Data → String
  | str s => s
  | other _ plain _ => plain
  | d => d.shown

/-- Keys of which no two are the same. -/
structure DistinctKeys (ks : List Data) : Prop where
  isKey : ∀ k ∈ ks, k.IsKey
  nodup : (ks.map keyForm?).Nodup

section

variable {ks : List Data} {k l : Data}

/-- Keys behind the first one. -/
theorem DistinctKeys.tail (h : DistinctKeys (k :: ks)) : DistinctKeys ks :=
  ⟨fun l hl => h.isKey l (List.mem_cons_of_mem _ hl), (List.nodup_cons.1 h.nodup).2⟩

/-- The first key is not the same as a later one. -/
theorem DistinctKeys.head_ne (h : DistinctKeys (k :: ks)) (hl : l ∈ ks) : keyForm? l ≠ keyForm? k :=
  fun heq => (List.nodup_cons.1 h.nodup).1 (heq ▸ List.mem_map_of_mem hl)

/-- A key that is the same as none of the others can be put behind them. -/
theorem DistinctKeys.concat (h : DistinctKeys ks) (hk : k.IsKey)
    (hnew : ∀ l ∈ ks, keyForm? l ≠ keyForm? k) : DistinctKeys (ks ++ [k]) := by
  refine ⟨fun l hl => ?_, ?_⟩
  · rcases List.mem_append.1 hl with hl | hl
    · exact h.isKey l hl
    · rwa [List.mem_singleton.1 hl]
  · rw [List.map_append, List.map_singleton, List.nodup_append]
    refine ⟨h.nodup, List.nodup_singleton _, fun f hf g hg heq => ?_⟩
    obtain ⟨l, hl, rfl⟩ := List.mem_map.1 hf
    exact hnew l hl (heq.trans (List.mem_singleton.1 hg))

/-- Distinct keys that are the same are equal. -/
theorem DistinctKeys.eq_of_form (h : DistinctKeys ks) (hk : k ∈ ks) (hl : l ∈ ks)
    (heq : keyForm? k = keyForm? l) : k = l := by
  induction ks with
  | nil => cases hk
  | cons head ks ih =>
      rcases List.mem_cons.1 hk with hk | hk' <;> rcases List.mem_cons.1 hl with hl | hl'
      · rw [hk, hl]
      · exact absurd (hk ▸ heq.symm) (h.head_ne hl')
      · exact absurd (hl ▸ heq) (h.head_ne hk')
      · exact ih h.tail hk' hl'

end

/-! ## Writing entries -/

section

variable {D C es : List (Data × Data)} {e : Data × Data} {k v : Data}

/-- A value under a key that is there takes the place of the other one. -/
theorem setEntry_of_mem (h : DistinctKeys (es.map (·.1))) (hk : ∃ e ∈ es, keyForm? e.1 = keyForm? k) :
    setEntry k v es = es.map fun e => if keyForm? e.1 = keyForm? k then (e.1, v) else e := by
  induction es with
  | nil => simp at hk
  | cons e es ih =>
      obtain ⟨key, w⟩ := e
      have hkey : IsKey key := h.isKey key List.mem_cons_self
      rw [setEntry, List.map_cons]
      by_cases hsame : keyForm? key = keyForm? k
      · have hrest : (es.map fun e => if keyForm? e.1 = keyForm? k then (e.1, v) else e) = es := by
          refine (List.map_congr_left fun e he => if_neg fun heq => ?_).trans (List.map_id _)
          exact h.head_ne (List.mem_map_of_mem he) (heq.trans hsame.symm)
        rw [if_pos ((sameKey_iff hkey).2 hsame), if_pos hsame, hrest]
      · rw [if_neg (mt (sameKey_iff hkey).1 hsame), if_neg hsame, ih h.tail]
        obtain ⟨e, he, heq⟩ := hk
        rcases List.mem_cons.1 he with rfl | he
        · exact absurd heq hsame
        · exact ⟨e, he, heq⟩

/-- A value under a key that is not there goes to the end. -/
theorem setEntry_of_not_mem (h : ∀ e ∈ es, e.1.IsKey) (hk : ∀ e ∈ es, keyForm? e.1 ≠ keyForm? k) :
    setEntry k v es = es ++ [(k, v)] := by
  induction es with
  | nil => rfl
  | cons e es ih =>
      obtain ⟨key, w⟩ := e
      have hne : keyForm? key ≠ keyForm? k := hk _ List.mem_cons_self
      have hkey : IsKey key := h _ List.mem_cons_self
      rw [setEntry, if_neg (mt (sameKey_iff hkey).1 hne), List.cons_append,
        ih (fun e he => h e (List.mem_cons_of_mem _ he)) fun e he => hk e (List.mem_cons_of_mem _ he)]

/-- A mapping that another one is written over. -/
def merged (D C : List (Data × Data)) : List (Data × Data) :=
  C.foldl (fun es e => setEntry e.1 e.2 es) D

/-- The entry of a mapping with the value that another mapping has under the same key, if any. -/
def overridden (C : List (Data × Data)) (e : Data × Data) : Data × Data :=
  (e.1, ((C.find? fun c => sameKey e.1 c.1).map (·.2)).getD e.2)

/-- An entry keeps its value if the other mapping does not have its key. -/
theorem overridden_of_ne (hk : e.1.IsKey) (h : ∀ c ∈ C, keyForm? c.1 ≠ keyForm? e.1) :
    overridden C e = e := by
  have hfind : C.find? (fun c => sameKey e.1 c.1) = Option.none :=
    List.find?_eq_none.2 fun c hc => mt (sameKey_iff hk).1 (h c hc).symm
  rw [overridden, hfind]
  rfl

/-- The first entry of the other mapping has the key. -/
theorem overridden_cons_of_same {c : Data × Data} (hk : e.1.IsKey)
    (h : keyForm? e.1 = keyForm? c.1) : overridden (c :: C) e = (e.1, c.2) := by
  rw [overridden, List.find?_cons, (sameKey_iff hk).2 h]
  rfl

/-- The first entry of the other mapping does not have the key. -/
theorem overridden_cons_of_ne {c : Data × Data} (hk : e.1.IsKey)
    (h : keyForm? e.1 ≠ keyForm? c.1) : overridden (c :: C) e = overridden C e := by
  rw [overridden, List.find?_cons, Bool.eq_false_iff.2 (mt (sameKey_iff hk).1 h)]
  rfl

/-- Whether the key of an entry is none of a mapping. -/
def isFresh (D : List (Data × Data)) (c : Data × Data) : Bool :=
  !D.any fun e => sameKey e.1 c.1

/-- Keys that are none of a mapping. -/
theorem isFresh_iff (h : ∀ e ∈ D, e.1.IsKey) :
    isFresh D e ↔ ∀ d ∈ D, keyForm? d.1 ≠ keyForm? e.1 := by
  rw [isFresh, Bool.not_eq_true', ← Bool.not_eq_true, List.any_eq_true, not_exists]
  exact forall_congr' fun d => by
    rw [not_and]
    exact forall_congr' fun hd => not_congr (sameKey_iff (h d hd))

/-- Whether a key is none of a mapping depends on the keys of the mapping only. -/
theorem isFresh_congr {D' : List (Data × Data)} (h : D'.map (·.1) = D.map (·.1)) :
    isFresh D' = isFresh D := by
  funext c
  have hany (es : List (Data × Data)) :
      (es.any fun e => sameKey e.1 c.1) = (es.map (·.1)).any fun k => sameKey k c.1 := by
    rw [List.any_map]
    rfl
  rw [isFresh, isFresh, hany, hany, h]

/-- The entry of another mapping that a key finds. -/
theorem find?_sameKey (hk : k.IsKey) (hC : DistinctKeys (C.map (·.1))) (he : e ∈ C)
    (hsame : keyForm? k = keyForm? e.1) : C.find? (fun c => sameKey k c.1) = some e := by
  induction C with
  | nil => cases he
  | cons c C ih =>
      rcases List.mem_cons.1 he with rfl | he
      · exact List.find?_cons_of_pos ((sameKey_iff hk).2 hsame)
      · have hne : sameKey k c.1 = false := Bool.eq_false_iff.2 fun h =>
          hC.head_ne (List.mem_map_of_mem he) (hsame.symm.trans ((sameKey_iff hk).1 h))
        rw [List.find?_cons, hne]
        exact ih hC.tail he

/-- A mapping that another one is written over has the own keys with the values of the other one, and
behind them the further keys. -/
theorem merged_eq (hD : DistinctKeys (D.map (·.1))) (hC : DistinctKeys (C.map (·.1))) :
    merged D C = D.map (overridden C) ++ C.filter (isFresh D) := by
  induction C generalizing D with
  | nil =>
      have hown : D.map (overridden []) = D := List.map_id'' (fun _ => rfl) D
      rw [hown, List.filter_nil, List.append_nil, merged, List.foldl_nil]
  | cons c C ih =>
      have hisKey : ∀ e ∈ D, e.1.IsKey := fun e he => hD.isKey _ (List.mem_map_of_mem he)
      have hlater : ∀ e ∈ C, keyForm? e.1 ≠ keyForm? c.1 := fun e he => hC.head_ne (List.mem_map_of_mem he)
      have hstep : merged D (c :: C) = merged (setEntry c.1 c.2 D) C := rfl
      by_cases hc : ∃ d ∈ D, keyForm? d.1 = keyForm? c.1
      · -- the key is there already, and does not come again
        have hold : isFresh D c = false := by
          obtain ⟨d, hd, hsame⟩ := hc
          exact Bool.eq_false_iff.2 fun h => (isFresh_iff hisKey).1 h d hd hsame
        have hkeys : (D.map fun e => if keyForm? e.1 = keyForm? c.1 then (e.1, c.2) else e).map (·.1) =
            D.map (·.1) := by
          rw [List.map_map]
          exact List.map_congr_left fun e _ => by
            dsimp only [Function.comp_apply]
            split <;> rfl
        rw [hstep, setEntry_of_mem hD hc, ih (hkeys.symm ▸ hD) hC.tail, isFresh_congr hkeys,
          List.filter_cons_of_neg (by rw [hold]; exact Bool.false_ne_true), List.map_map]
        congr 1
        refine List.map_congr_left fun e he => ?_
        dsimp only [Function.comp_apply]
        split
        · next hsame =>
            rw [overridden_cons_of_same (hisKey e he) hsame]
            exact overridden_of_ne (hisKey e he) fun l hl => hsame.symm ▸ hlater l hl
        · next hne => exact (overridden_cons_of_ne (hisKey e he) hne).symm
      · have hnew : ∀ d ∈ D, keyForm? d.1 ≠ keyForm? c.1 := fun d hd hsame => hc ⟨d, hd, hsame⟩
        have hkey : c.1.IsKey := hC.isKey _ List.mem_cons_self
        have hD' : DistinctKeys ((D ++ [c]).map (·.1)) := by
          rw [List.map_append, List.map_singleton]
          refine hD.concat hkey fun l hl => ?_
          obtain ⟨d, hd, rfl⟩ := List.mem_map.1 hl
          exact hnew d hd
        have hisKey' : ∀ e ∈ D ++ [c], e.1.IsKey := fun e he => hD'.isKey _ (List.mem_map_of_mem he)
        have hrest : C.filter (isFresh (D ++ [c])) = C.filter (isFresh D) := by
          refine List.filter_congr fun e he => Bool.eq_iff_iff.2 ?_
          rw [isFresh_iff hisKey', isFresh_iff hisKey, List.forall_mem_append]
          exact and_iff_left fun d hd => List.mem_singleton.1 hd ▸ (hlater e he).symm
        have hfirst : D.map (overridden C) = D.map (overridden (c :: C)) :=
          List.map_congr_left fun e he => (overridden_cons_of_ne (hisKey e he) (hnew e he)).symm
        rw [hstep, setEntry_of_not_mem hisKey hnew, ih hD' hC.tail, hrest, List.map_append, hfirst,
          List.filter_cons_of_pos ((isFresh_iff hisKey).2 hnew), List.map_singleton,
          overridden_of_ne hkey hlater, List.append_assoc, List.singleton_append]

end

/-! ## Values under texts -/

/-- The last of the keys with a text. -/
def lastKey? (n : String) (ks : List Data) : Option Data :=
  ks.reverse.find? fun k => k.text = n

/-- The value under the last of the keys with a text. -/
def lastNamed? (n : String) (es : List (Data × Data)) : Option Data :=
  (es.reverse.find? fun e => e.1.text = n).map (·.2)

section

variable {n : String} {D C es : List (Data × Data)} {e : Data × Data} {ks ls : List Data} {k l v : Data}

/-- Entries behind others come later. -/
theorem lastNamed?_append (n : String) (es fs : List (Data × Data)) :
    lastNamed? n (es ++ fs) = (lastNamed? n fs).or (lastNamed? n es) := by
  rw [lastNamed?, List.reverse_append, List.find?_append, Option.map_or]
  rfl

/-- There is no value under a text that no key has. -/
theorem lastNamed?_eq_none : lastNamed? n es = Option.none ↔ ∀ e ∈ es, e.1.text ≠ n := by
  simp [lastNamed?]

/-- The last of the keys of entries with a text. -/
theorem lastKey?_keys (n : String) (es : List (Data × Data)) :
    lastKey? n (es.map (·.1)) = (es.reverse.find? fun e => e.1.text = n).map (·.1) := by
  rw [lastKey?, ← List.map_reverse, List.find?_map]
  rfl

/-- The value under the last key with a text is that of an entry. -/
theorem exists_of_lastKey? (h : lastKey? n (es.map (·.1)) = some k) :
    ∃ e ∈ es, e.1 = k ∧ e.1.text = n ∧ es.reverse.find? (fun e => e.1.text = n) = some e := by
  rw [lastKey?_keys] at h
  obtain ⟨e, hfind, rfl⟩ := Option.map_eq_some_iff.1 h
  exact ⟨e, List.mem_reverse.1 (List.mem_of_find?_eq_some hfind), rfl,
    by simpa using List.find?_some hfind, hfind⟩

/-- No key has a text under which there is no last key. -/
theorem lastKey?_eq_none : lastKey? n ks = Option.none ↔ ∀ k ∈ ks, k.text ≠ n := by
  simp [lastKey?]

/-- Entries whose keys stay as they are have their values changed. -/
theorem lastNamed?_map {f : Data × Data → Data × Data} (h : ∀ e, (f e).1 = e.1) :
    lastNamed? n (es.map f) = (es.reverse.find? fun e => e.1.text = n).map fun e => (f e).2 := by
  rw [lastNamed?, ← List.map_reverse, List.find?_map, Option.map_map]
  have hkey : (fun e : Data × Data => decide (e.1.text = n)) ∘ f = fun e => decide (e.1.text = n) :=
    funext fun e => by rw [Function.comp_apply, h]
  rw [hkey]
  rfl

/-- The last entry under a text stays the last one among those that it is chosen with. -/
theorem lastNamed?_filter {p : Data × Data → Bool}
    (h : es.reverse.find? (fun e => e.1.text = n) = some e) (hp : p e) :
    lastNamed? n (es.filter p) = some e.2 := by
  have hfind : (es.filter p).reverse.find? (fun e => e.1.text = n) = some e := by
    rw [← List.filter_reverse]
    generalize es.reverse = fs at h ⊢
    induction fs with
    | nil => cases h
    | cons f fs ih =>
        rw [List.find?_cons] at h
        cases htext : decide (f.1.text = n) with
        | true =>
            rw [htext] at h
            cases h
            rw [List.filter_cons_of_pos hp, List.find?_cons, htext]
        | false =>
            rw [htext] at h
            rw [List.filter_cons]
            split
            · rw [List.find?_cons, htext]
              exact ih h
            · exact ih h
  rw [lastNamed?, hfind]
  rfl

/-- The conditions on the keys of two mappings under which, where the second one is written over the first
one, the value under a text is the last one of the second mapping, or else the last one of the first
mapping. The last key with the text must either be a further one, or be the last one with the text in the first
mapping too, and none of the further keys may have the text. A text that the second mapping lacks must
belong to a key that it lacks too. -/
structure Agree (ks ls : List Data) (n : String) : Prop where
  overriding : ∀ l, lastKey? n ls = some l → ∀ k ∈ ks, keyForm? k = keyForm? l →
    lastKey? n ks = some k ∧ ∀ l' ∈ ls, l'.text = n → ∃ k' ∈ ks, keyForm? k' = keyForm? l'
  kept : lastKey? n ls = Option.none → ∀ k, lastKey? n ks = some k → ∀ l ∈ ls, keyForm? k ≠ keyForm? l

/-- The value under a text where one mapping is written over another. -/
theorem lastNamed?_merged (hD : DistinctKeys (D.map (·.1))) (hC : DistinctKeys (C.map (·.1))) :
    lastNamed? n (merged D C) =
      (lastNamed? n (C.filter (isFresh D))).or
        ((D.reverse.find? fun e => e.1.text = n).map fun e => (overridden C e).2) := by
  have hkey (e : Data × Data) : (overridden C e).1 = e.1 := rfl
  rw [merged_eq hD hC, lastNamed?_append, lastNamed?_map hkey]

/-- Where the keys agree, the last value is that of the second mapping, or else that of the first one. -/
theorem Agree.lastNamed?_eq (h : Agree (D.map (·.1)) (C.map (·.1)) n)
    (hD : DistinctKeys (D.map (·.1))) (hC : DistinctKeys (C.map (·.1))) :
    lastNamed? n (merged D C) = (lastNamed? n C).or (lastNamed? n D) := by
  have hisKey : ∀ e ∈ D, e.1.IsKey := fun e he => hD.isKey _ (List.mem_map_of_mem he)
  rw [lastNamed?_merged hD hC]
  cases hlast : lastKey? n (C.map (·.1)) with
  | none =>
      have hnone : ∀ c ∈ C, c.1.text ≠ n := fun c hc =>
        lastKey?_eq_none.1 hlast _ (List.mem_map_of_mem hc)
      rw [lastNamed?_eq_none.2 hnone, lastNamed?_eq_none.2 fun c hc => hnone c (List.mem_filter.1 hc).1]
      rw [Option.none_or, Option.none_or, lastNamed?]
      cases hfind : D.reverse.find? fun e => e.1.text = n with
      | none => rfl
      | some d =>
          have hd : d ∈ D := List.mem_reverse.1 (List.mem_of_find?_eq_some hfind)
          have hkey : lastKey? n (D.map (·.1)) = some d.1 := by rw [lastKey?_keys, hfind]; rfl
          rw [Option.map_some, Option.map_some, overridden_of_ne (hisKey d hd) fun c hc =>
            (h.kept hlast d.1 hkey c.1 (List.mem_map_of_mem hc)).symm]
  | some l =>
      obtain ⟨c, hc, rfl, htext, hfind⟩ := exists_of_lastKey? hlast
      have hclaimed : (lastNamed? n C).or (lastNamed? n D) = some c.2 := by
        rw [lastNamed?, hfind]
        rfl
      rw [hclaimed]
      by_cases hold : ∃ d ∈ D, keyForm? d.1 = keyForm? c.1
      · obtain ⟨d, hd, hsame⟩ := hold
        obtain ⟨hkey, hfresh⟩ := h.overriding c.1 hlast d.1 (List.mem_map_of_mem hd) hsame
        have hnone : lastNamed? n (C.filter (isFresh D)) = Option.none := by
          refine lastNamed?_eq_none.2 fun e he htext => ?_
          obtain ⟨hmem, hnew⟩ := List.mem_filter.1 he
          obtain ⟨k, hk, hsame⟩ := hfresh e.1 (List.mem_map_of_mem hmem) htext
          obtain ⟨d, hd, rfl⟩ := List.mem_map.1 hk
          exact (isFresh_iff hisKey).1 hnew d hd hsame
        obtain ⟨d', hd', hkey', -, hfind'⟩ := exists_of_lastKey? hkey
        have hvalue : (overridden C d').2 = c.2 := by
          rw [overridden, find?_sameKey (hisKey d' hd') hC hc (by rw [hkey', hsame])]
          rfl
        rw [hnone, hfind', Option.none_or, Option.map_some, hvalue]
      · have hnew : isFresh D c := (isFresh_iff hisKey).2 fun d hd hsame => hold ⟨d, hd, hsame⟩
        rw [lastNamed?_filter hfind hnew]
        rfl

/-- A mapping with certain keys whose values are truth values. -/
def marked (ks : List Data) (f : Data → Bool) : List (Data × Data) :=
  ks.map fun k => (k, .bool (f k))

/-- The keys of a mapping that was made for them. -/
theorem marked_keys (ks : List Data) (f : Data → Bool) : (marked ks f).map (·.1) = ks := by
  rw [marked, List.map_map]
  exact List.map_id _

/-- The value of an entry tells of its key. -/
theorem value_of_mem_marked {f : Data → Bool} (h : e ∈ marked ks f) : e.2 = .bool (f e.1) := by
  obtain ⟨k, -, rfl⟩ := List.mem_map.1 h
  rfl

/-- A value under a text is that of an entry. -/
theorem exists_of_lastNamed? (h : lastNamed? n es = some v) : ∃ e ∈ es, e.2 = v := by
  obtain ⟨e, hfind, hv⟩ := Option.map_eq_some_iff.1 h
  exact ⟨e, List.mem_reverse.1 (List.mem_of_find?_eq_some hfind), hv⟩

/-- A value that is not the own one is that of the other mapping under the same key. -/
theorem overridden_cases (hk : e.1.IsKey) :
    overridden C e = e ∨ ∃ c ∈ C, keyForm? e.1 = keyForm? c.1 ∧ (overridden C e).2 = c.2 := by
  cases hfind : C.find? fun c => sameKey e.1 c.1 with
  | none =>
      rw [overridden, hfind]
      exact .inl rfl
  | some c =>
      refine .inr ⟨c, List.mem_of_find?_eq_some hfind,
        (sameKey_iff hk).1 (by simpa using List.find?_some hfind), ?_⟩
      rw [overridden, hfind]
      rfl

/-- Whether for all values under certain keys the value under a text is the last one of the second mapping,
or else the last one of the first mapping. -/
def Overrides (ks ls : List Data) (n : String) : Prop :=
  ∀ D C : List (Data × Data), D.map (·.1) = ks → C.map (·.1) = ls →
    lastNamed? n (merged D C) = (lastNamed? n C).or (lastNamed? n D)

/-- The last key with a text of the second mapping, where the first one has it, is also the last one there. -/
theorem Overrides.overriding (h : Overrides ks ls n) (hks : DistinctKeys ks) (hls : DistinctKeys ls)
    (hl : lastKey? n ls = some l) (hk : k ∈ ks) (hsame : keyForm? k = keyForm? l) :
    lastKey? n ks = some k ∧ ∀ l' ∈ ls, l'.text = n → ∃ k' ∈ ks, keyForm? k' = keyForm? l' := by
  -- only the value that is claimed is marked as true
  let D := marked ks fun _ => false
  let C := marked ls fun l' => keyForm? l' = keyForm? l
  have hD : D.map (·.1) = ks := marked_keys _ _
  have hC : C.map (·.1) = ls := marked_keys _ _
  have hisKey : ∀ e ∈ D, e.1.IsKey := fun e he => hks.isKey _ (hD ▸ List.mem_map_of_mem he)
  have heq := h D C hD hC
  rw [lastNamed?_merged (hD.symm ▸ hks) (hC.symm ▸ hls)] at heq
  have hclaimed : lastNamed? n C = some (.bool true) := by
    obtain ⟨e, he, hkey, -, hfind⟩ := exists_of_lastKey? (hC.symm ▸ hl : lastKey? n (C.map (·.1)) = some l)
    rw [lastNamed?, hfind, Option.map_some, value_of_mem_marked he, hkey, decide_eq_true rfl]
  rw [hclaimed, Option.some_or] at heq
  obtain ⟨d, hd, rfl⟩ : ∃ d ∈ D, d.1 = k := List.mem_map.1 (hD.symm ▸ hk)
  have hnone : lastNamed? n (C.filter (isFresh D)) = Option.none := by
    cases hlast : lastNamed? n (C.filter (isFresh D)) with
    | none => rfl
    | some v =>
        obtain ⟨e, he, rfl⟩ := exists_of_lastNamed? hlast
        obtain ⟨hmem, hnew⟩ := List.mem_filter.1 he
        have hne : keyForm? e.1 ≠ keyForm? l := fun hel =>
          (isFresh_iff hisKey).1 hnew d hd (hsame.trans hel.symm)
        rw [hlast, value_of_mem_marked hmem, decide_eq_false hne] at heq
        cases heq
  rw [hnone, Option.none_or] at heq
  obtain ⟨d', hfind, hvalue⟩ := Option.map_eq_some_iff.1 heq
  have hd' : d' ∈ D := List.mem_reverse.1 (List.mem_of_find?_eq_some hfind)
  have hform : keyForm? d'.1 = keyForm? l := by
    obtain hown | ⟨c, hc, hdc, hother⟩ := overridden_cases (C := C) (hisKey d' hd')
    · rw [hown, value_of_mem_marked hd'] at hvalue
      cases hvalue
    · rw [hother, value_of_mem_marked hc] at hvalue
      exact hdc.trans (of_decide_eq_true (Data.bool.inj hvalue))
  have hkey : d'.1 = d.1 := by
    refine (hD.symm ▸ hks : DistinctKeys (D.map (·.1))).eq_of_form (List.mem_map_of_mem hd')
      (List.mem_map_of_mem hd) (hform.trans hsame.symm)
  refine ⟨?_, fun l' hl' htext => ?_⟩
  · rw [← hD, lastKey?_keys, hfind, Option.map_some, hkey]
  · obtain ⟨e, he, rfl⟩ : ∃ e ∈ C, e.1 = l' := List.mem_map.1 (hC.symm ▸ hl')
    have hold : ¬ isFresh D e := fun hnew =>
      lastNamed?_eq_none.1 hnone e (List.mem_filter.2 ⟨he, hnew⟩) htext
    by_contra hno
    refine hold ((isFresh_iff hisKey).2 fun k' hk' hsame' => hno ?_)
    exact ⟨k'.1, hD ▸ List.mem_map_of_mem hk', hsame'⟩

/-- The last key with a text of the first mapping, where no key of the second one has the text, is none of the
second mapping. -/
theorem Overrides.kept (h : Overrides ks ls n) (hks : DistinctKeys ks) (hls : DistinctKeys ls)
    (hl : lastKey? n ls = Option.none) (hk : lastKey? n ks = some k) (hmem : l ∈ ls) :
    keyForm? k ≠ keyForm? l := by
  intro hsame
  -- the values of the second mapping are marked as true, those of the first one as false
  let D := marked ks fun _ => false
  let C := marked ls fun _ => true
  have hD : D.map (·.1) = ks := marked_keys _ _
  have hC : C.map (·.1) = ls := marked_keys _ _
  have hisKey : ∀ e ∈ D, e.1.IsKey := fun e he => hks.isKey _ (hD ▸ List.mem_map_of_mem he)
  have heq := h D C hD hC
  rw [lastNamed?_merged (hD.symm ▸ hks) (hC.symm ▸ hls)] at heq
  obtain ⟨d, hd, rfl, -, hfind⟩ := exists_of_lastKey? (hD.symm ▸ hk : lastKey? n (D.map (·.1)) = some k)
  obtain ⟨c, hc, rfl⟩ : ∃ c ∈ C, c.1 = l := List.mem_map.1 (hC.symm ▸ hmem)
  have hnone : ∀ c ∈ C, c.1.text ≠ n := fun c hc =>
    lastKey?_eq_none.1 hl _ (hC ▸ List.mem_map_of_mem hc)
  have hvalue : (overridden C d).2 = c.2 := by
    rw [overridden, find?_sameKey (hisKey d hd) (hC.symm ▸ hls) hc hsame]
    rfl
  rw [lastNamed?_eq_none.2 fun c hc => hnone c (List.mem_filter.1 hc).1, lastNamed?_eq_none.2 hnone,
    lastNamed?, hfind, Option.none_or, Option.none_or, Option.map_some, Option.map_some, hvalue,
    value_of_mem_marked hc, value_of_mem_marked hd] at heq
  cases heq

/-- Whether the second mapping wins for all values depends on the keys alone. -/
theorem overrides_iff (hks : DistinctKeys ks) (hls : DistinctKeys ls) (n : String) :
    Overrides ks ls n ↔ Agree ks ls n := by
  constructor
  · exact fun h =>
      ⟨fun l hl k hk hsame => h.overriding hks hls hl hk hsame, fun hl k hk l hmem => h.kept hks hls hl hk hmem⟩
  · rintro h D C rfl rfl
    exact h.lastNamed?_eq hks hls

/-- Keys agree where each text belongs to one key, as it does among strings. -/
theorem agree_of_text (hks : DistinctKeys ks)
    (h : ∀ k ∈ ks ++ ls, ∀ l ∈ ks ++ ls, k.text = l.text ↔ keyForm? k = keyForm? l) (n : String) :
    Agree ks ls n where
  overriding l hl k hk hsame := by
    have hk' : k ∈ ks ++ ls := List.mem_append_left _ hk
    have hmem : l ∈ ls := List.mem_reverse.1 (List.mem_of_find?_eq_some hl)
    have htext : l.text = n := by simpa using List.find?_some hl
    have hkn : k.text = n := ((h k hk' l (List.mem_append_right _ hmem)).2 hsame).trans htext
    refine ⟨?_, fun l' hl' hn => ⟨k, hk, ?_⟩⟩
    · cases hlast : lastKey? n ks with
      | none => exact absurd hkn (lastKey?_eq_none.1 hlast k hk)
      | some k' =>
          have hmem' : k' ∈ ks := List.mem_reverse.1 (List.mem_of_find?_eq_some hlast)
          have htext' : k'.text = n := by simpa using List.find?_some hlast
          have hform := (h k' (List.mem_append_left _ hmem') k hk').1 (htext'.trans hkn.symm)
          rw [hks.eq_of_form hmem' hk hform]
    · exact (h k hk' l' (List.mem_append_right _ hl')).1 (hkn.trans hn.symm)
  kept hl k hk l hmem hsame := by
    have hmem' : k ∈ ks := List.mem_reverse.1 (List.mem_of_find?_eq_some hk)
    have htext : k.text = n := by simpa using List.find?_some hk
    have hln := (h k (List.mem_append_left _ hmem') l (List.mem_append_right _ hmem)).2 hsame
    exact lastKey?_eq_none.1 hl l hmem (hln.symm.trans htext)

end

end Stencil.Data
