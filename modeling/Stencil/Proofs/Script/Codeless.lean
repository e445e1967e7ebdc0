import Stencil.Proofs.Script.Continuation

/-!
# Lines without code

A line holds no code when it is made up of gaps and remarks. A carriage return within it ends a remark
as a line break does. Such a line starts no logical line that another one could continue
(`Codeless.passes`).
-/

namespace Stencil.Script

/-- Whether a text is made up of gaps, carriage returns, and remarks that run to the next carriage
return. -/
inductive Codeless : Text → Prop where
  | nil : Codeless []
  | gap {c : Char} {t : Text} (hc : isRowGap c ∨ c = '\r') (ht : Codeless t) : Codeless (c :: t)
  | remark {r t : Text} (hr : '\r' ∉ r) (hstart : ∀ c ∈ t.head?, c = '\r') (ht : Codeless t) :
      Codeless ('#' :: (r ++ t))

namespace Codeless

/-- What begins a line without code is one. -/
theorem of_append {a b : Text} (h : Codeless (a ++ b)) : Codeless a := by
  obtain ⟨t, ht⟩ : ∃ t, t = a ++ b := ⟨_, rfl⟩
  rw [← ht] at h
  induction h generalizing a with
  | nil =>
      rw [(List.append_eq_nil_iff.1 ht.symm).1]
      exact .nil
  | gap hc _ ih =>
      cases a with
      | nil => exact .nil
      | cons d a =>
          obtain ⟨rfl, rfl⟩ := List.cons.inj ht
          exact .gap hc (ih rfl)
  | @remark r t hr hstart _ ih =>
      cases a with
      | nil => exact .nil
      | cons d a =>
          obtain ⟨rfl, hsplit⟩ := List.cons.inj (List.cons_append ▸ ht)
          obtain ⟨u, rfl, rfl⟩ | ⟨u, rfl, rfl⟩ := List.append_eq_append_iff.1 hsplit
          · -- the remark ends first
            refine .remark hr (fun c hc => hstart c ?_) (ih rfl)
            cases u with
            | nil => cases hc
            | cons d u => exact hc
          · -- the text ends within the remark
            have ha : '\r' ∉ a := fun hmem => hr (List.mem_append_left _ hmem)
            exact List.append_nil a ▸ .remark ha (fun c hc => by cases hc) .nil

/-- A line that starts with another character than a gap or a remark holds code. -/
theorem head_eq {c : Char} {t : Text} (h : Codeless (c :: t)) : isRowGap c ∨ c = '\r' ∨ c = '#' := by
  cases h with
  | gap hc _ => exact hc.imp_right .inl
  | remark => exact .inr (.inr rfl)

/-- A line without code leaves no logical line started. -/
theorem passes {t : Text} (h : Codeless t) (hbreak : '\n' ∉ t) : Passes (t ++ ['\n']) := by
  suffices hscan : ∀ fuel s, (t ++ ['\n']).length < fuel → s.depth ≤ 0 →
      (scanRow fuel s (t ++ ['\n'])).start? = none from fun s hs => hscan _ s (Nat.lt_succ_self _) hs
  induction h with
  | nil =>
      rintro (_ | fuel) s hfuel hdepth
      · cases hfuel
      · show (if 0 < s.depth then s else s.close s.row).start? = none
        rw [if_neg (Int.not_lt.2 hdepth)]
        rfl
  | @gap c t hc _ ih =>
      rintro (_ | fuel) s hfuel hdepth
      · cases hfuel
      rw [List.mem_cons, not_or] at hbreak
      rcases hc with hgap | rfl
      · -- a gap is passed over
        have hdrop : scanRow (fuel + 1) s (c :: (t ++ ['\n'])) = scanRow (fuel + 1) s (t ++ ['\n']) := by
          rw [← scanRow_dropWhile, List.dropWhile_cons_of_pos hgap, scanRow_dropWhile]
        rw [List.cons_append, hdrop]
        exact ih hbreak.2 _ s (Nat.lt_of_succ_lt hfuel) hdepth
      · have hdrop : ('\r' :: (t ++ ['\n'])).dropWhile isRowGap = '\r' :: (t ++ ['\n']) := rfl
        rw [List.cons_append, scanRow_plain hdrop (by decide)]
        split
        · rw [if_neg (Int.not_lt.2 hdepth)]
          rfl
        · refine ih hbreak.2 _ _ (Nat.lt_of_succ_lt_succ hfuel) ?_
          rw [RowState.mark_eq]
          exact hdepth
  | @remark r t hr hstart _ ih =>
      rintro (_ | fuel) s hfuel hdepth
      · cases hfuel
      rw [List.mem_cons, List.mem_append, not_or, not_or] at hbreak
      -- the remark is passed over up to the carriage return, or to the end of the line
      have hpart : ∀ c ∈ r, (c ≠ '\n' && c ≠ '\r') = true := by
        intro c hc
        have hn : c ≠ '\n' := fun h => hbreak.2.1 (h ▸ hc)
        have hr : c ≠ '\r' := fun h => hr (h ▸ hc)
        simp [hn, hr]
      have hrest : (r ++ (t ++ ['\n'])).dropWhile (fun c => c ≠ '\n' && c ≠ '\r') = t ++ ['\n'] := by
        rw [List.dropWhile_append_of_pos hpart]
        cases t with
        | nil => rfl
        | cons d t =>
            rw [hstart d rfl]
            rfl
      have hscan : scanRow (fuel + 1) s ('#' :: (r ++ (t ++ ['\n']))) = scanRow fuel s (t ++ ['\n']) :=
        congrArg (scanRow fuel s) hrest
      rw [List.cons_append, List.append_assoc, hscan]
      refine ih hbreak.2.2 fuel s ?_ hdepth
      simp only [List.length_append, List.length_cons, List.length_nil] at hfuel ⊢
      omega

end Codeless

end Stencil.Script
