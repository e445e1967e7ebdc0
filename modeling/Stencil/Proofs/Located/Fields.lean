import Stencil.Proofs.Located.Tokens

/-!
# Where the fields of a string stand

The value of a field stands in the body of its string behind an opening curly bracket, on whose line it
starts, and so do the fields of its format (`located_splitPieces`).
-/

namespace Stencil.Script

section

variable {P : Nat → Prop} {line fuel : Nat} {t rest : Text}

/-- What is left behind further literal text. -/
theorem rest_suffix_of_map {run? : Option LiteralRun} {run : LiteralRun} {f : LiteralRun → LiteralRun}
    {r : Text} (h : run?.map f = some run) (hf : ∀ l, (f l).rest = l.rest)
    (ih : ∀ {run}, run? = some run → run.rest <:+ r) (hr : r <:+ t) : run.rest <:+ t := by
  obtain ⟨l, hl, rfl⟩ := Option.map_eq_some_iff.1 h
  rw [hf]
  exact (ih hl).trans hr

/-- Literal text is taken from the front. -/
theorem literalRun_suffix {raw inFormat : Bool} {run : LiteralRun}
    (h : literalRun raw inFormat fuel t = some run) : run.rest <:+ t := by
  fun_induction literalRun raw inFormat fuel t generalizing run with
  | case1 | case10 => cases h
  | case2 =>
      cases h
      exact List.suffix_refl _
  | case3 fuel c r _ ih | case7 fuel c r _ _ _ ih | case12 fuel c r _ _ ih =>
      exact rest_suffix_of_map h (fun _ => rfl) ih (List.suffix_cons ..)
  | case4 fuel _ r =>
      rename_i ih
      exact rest_suffix_of_map h (fun _ => rfl) ih ((List.drop_suffix _ r).trans ⟨['\\', 'N', '\x7b'], rfl⟩)
  | case5 fuel _ d r _ ih => exact rest_suffix_of_map h (fun _ => rfl) ih ⟨['\\', 'N', d], rfl⟩
  | case6 =>
      cases h
      exact List.nil_suffix
  | case8 fuel c r _ _ _ ih => exact rest_suffix_of_map h (fun _ => rfl) ih ⟨['\\', c], rfl⟩
  | case9 fuel c r _ _ _ ih =>
      exact rest_suffix_of_map h (fun _ => rfl) ih ((List.drop_suffix 1 r).trans (List.suffix_cons ..))
  | case11 =>
      cases h
      exact List.suffix_refl _

/-- The value of a field is taken from the front. -/
theorem fieldValue_append {s : FieldState} {value : Text}
    (h : fieldValue fuel s t = some (value, rest)) : value ++ rest = t := by
  induction fuel generalizing s t value with
  | zero => cases h
  | succ fuel ih =>
      cases t with
      | nil => cases h
      | cons c r =>
          have hgo {s : FieldState} {n : Nat}
              (h : ((fieldValue fuel s ((c :: r).drop n)).map fun x => ((c :: r).take n ++ x.1, x.2)) =
                some (value, rest)) : value ++ rest = c :: r := by
            obtain ⟨⟨v, u⟩, hv, heq⟩ := Option.map_eq_some_iff.1 h
            cases heq
            rw [List.append_assoc, ih hv, List.take_append_drop]
          unfold fieldValue at h
          dsimp only at h
          repeat' split at h
          all_goals first | exact hgo h | cases h
          rfl

/-- What is left of a located text, behind the breaks in front of it. -/
theorem Located.suffix (h : Located P line t) (hrest : rest <:+ t) :
    Located P (line + Text.breaks (t.take (t.length - rest.length))) rest := by
  obtain ⟨x, rfl⟩ := hrest
  have hx : (x ++ rest).take ((x ++ rest).length - rest.length) = x := by
    rw [List.length_append, Nat.add_sub_cancel, List.take_left]
  rw [hx]
  exact h.right

/-- A field of a string stands on lines of a kind: the bracket in front of its value, the value, and the
fields of its format. -/
inductive Piece.Located (P : Nat → Prop) (line : Nat) : Piece → Prop
  | text {t : Text} : Piece.Located P line (.text t)
  | field {value : Text} {before : Nat} {shown : Option Text} {conversion : Option Char}
      {format : Option (List Piece)} : P (line + before) → Script.Located P (line + before) value →
      (∀ ps ∈ format, ∀ p ∈ ps, Piece.Located P line p) →
      Piece.Located P line (.field value before shown conversion format)

theorem shownText_suffix (value : Text) : (shownText value t).2 <:+ t := by
  fun_cases shownText value t with
  | case1 r gap => exact (List.drop_suffix _ r).trans (List.suffix_cons ..)
  | case2 => exact List.suffix_refl _

theorem fieldLetter?_suffix {letter : Option Char} (h : fieldLetter? t = some (letter, rest)) :
    rest <:+ t := by
  fun_cases fieldLetter? t with
  | case1 k r =>
      rw [fieldLetter?, if_pos ‹_›] at h
      cases h
      exact ⟨['!', k], rfl⟩
  | case2 k r =>
      rw [fieldLetter?, if_neg ‹_›] at h
      cases h
  | case3 => cases h
  | case4 =>
      rw [fieldLetter?] at h
      · cases h
        exact List.suffix_refl _
      all_goals assumption

/-- The fields of a located text. -/
theorem located_splitPieces {raw : Bool} {level breaks : Nat} {ps : List Piece}
    (h : splitPieces raw fuel level breaks t = some (ps, rest)) (ht : Located P (line + breaks) t) :
    (∀ p ∈ ps, p.Located P line) ∧ rest <:+ t := by
  induction fuel generalizing level breaks t ps rest with
  | zero => cases h
  | succ fuel ih =>
      -- the breaks passed are counted from the start of the body, through all calls
      have hbehind {r : Text} (hr : r <:+ t) : Located P
          (line + (breaks + Text.breaks (t.take (t.length - r.length)))) r := by
        rw [← Nat.add_assoc]
        exact ht.suffix hr
      unfold splitPieces at h
      obtain ⟨run, hrun, h⟩ := Option.bind_eq_some_iff.1 h
      obtain ⟨text, -, h⟩ := Option.bind_eq_some_iff.1 h
      dsimp only at h
      have hfront : ∀ p ∈ (if text.isEmpty then [] else [.text text] : List Piece), p.Located P line := by
        intro p hp
        split at hp
        · cases hp
        · rw [List.mem_singleton.1 hp]
          exact .text
      have hrun := literalRun_suffix hrun
      split at h
      · next r heq =>
          rw [heq] at hrun h
          have hopen := hbehind hrun
          split at h
          · cases h
          obtain ⟨⟨value, rest₁⟩, hvalue, h⟩ := Option.bind_eq_some_iff.1 h
          have hvalue := fieldValue_append hvalue
          dsimp only at h
          split at h
          · cases h
          obtain ⟨⟨letter, rest₂⟩, hletter, h⟩ := Option.bind_eq_some_iff.1 h
          obtain ⟨⟨format, rest₃⟩, hformat, h⟩ := Option.bind_eq_some_iff.1 h
          dsimp only at h hformat
          have hletter : rest₂ <:+ t :=
            (fieldLetter?_suffix hletter).trans ((shownText_suffix value).trans
              (.trans ⟨value, hvalue⟩ ((List.suffix_cons ..).trans hrun)))
          -- the fields of a format are found by the same function, with less fuel
          obtain ⟨hlocated, hrest₃⟩ : (∀ ps ∈ format, ∀ p ∈ ps, p.Located P line) ∧ rest₃ <:+ t := by
            split at hformat
            · next r' _ _ =>
                have hr' : r' <:+ t := (List.suffix_cons ..).trans hletter
                split at hformat
                · cases hformat
                · obtain ⟨⟨ps', u⟩, hpieces, heq⟩ := Option.map_eq_some_iff.1 hformat
                  cases heq
                  obtain ⟨hpieces, hu⟩ := ih hpieces (hbehind hr')
                  refine ⟨fun ps hps => ?_, hu.trans hr'⟩
                  cases hps
                  exact hpieces
            · cases hformat
              exact ⟨nofun, hletter⟩
          split at h
          · next r' =>
              have hr' : r' <:+ t := (List.suffix_cons ..).trans hrest₃
              obtain ⟨⟨ps', u⟩, hpieces, h⟩ := Option.bind_eq_some_iff.1 h
              cases h
              obtain ⟨hpieces, hu⟩ := ih hpieces (hbehind hr')
              refine ⟨fun p hp => ?_, hu.trans hr'⟩
              obtain hp | hp := List.mem_append.1 hp
              · exact hfront p hp
              obtain rfl | hp := List.mem_cons.1 hp
              · refine .field (hopen.head (by decide) (by decide)) ?_ hlocated
                refine Located.left (y := rest₁) ?_
                rw [hvalue]
                exact hopen.onLine ((OnLine.refl r).cons (by decide))
              · exact hpieces p hp
          · cases h
      · cases h
        exact ⟨hfront, hrun⟩

end

end Stencil.Script
