import Stencil.Proofs.Script.Lexing
import Stencil.Proofs.Script.Quoted
import Stencil.Proofs.Inset.Expressions

/-!
# Tokens before different ends

A line break and a closing bracket belong to no token that starts before them, save a string. So a text in
front of one has the same tokens as in front of the other, whatever comes behind them.
-/

namespace Stencil.Script

open Text (isAsciiDigit isAsciiLetter)

/-- A text that starts with a line break or a closing bracket. -/
inductive EndsInset : Text → Prop
  | newline (r : Text) : EndsInset ('\n' :: r)
  | bracket (r : Text) : EndsInset (')' :: r)

namespace EndsInset

variable {x : Text}

/-- A character with which a text does not start. -/
theorem head_ne {c : Char} (h : EndsInset x) (hnewline : c ≠ '\n') (hbracket : c ≠ ')') :
    x.head? ≠ some c := by
  cases h <;> intro heq <;> cases heq <;> contradiction

/-- What holds of the first characters. -/
theorem exists_cons {P : Char → Prop} (h : EndsInset x) (hnewline : P '\n') (hbracket : P ')') :
    ∃ d y, x = d :: y ∧ P d := by
  cases h
  · exact ⟨_, _, rfl, hnewline⟩
  · exact ⟨_, _, rfl, hbracket⟩

end EndsInset

/-- The fraction of a number, and what follows it. -/
def fractionPart : Text → Option (Option Text × Text)
  | '.' :: r =>
    if r.head?.any isAsciiDigit then
      let (ds, rest) := digitRun isAsciiDigit r
      if rest.head? == some '_' then none else some (some ds, rest)
    else some (some [], r)
  | r => some (none, r)

/-- The number that is made of its parts, in front of a text. -/
def numberFrom (whole : Text) (fraction : Option Text) (power : Option Int) (t : Text) :
    Option (Numeric × Text) :=
  match t with
  | 'j' :: r | 'J' :: r =>
    if numberEnds r then some (.imaginary (Decimal.Numeral.value ⟨whole, fraction, power⟩ false), r) else none
  | _ =>
    if !numberEnds t then none
    else if fraction.isSome || power.isSome then
      some (.float (Decimal.Numeral.value ⟨whole, fraction, power⟩ false), t)
    else if whole.head? == some '0' && whole.any (· ≠ '0') then none
    else if 4300 < whole.length then some (.tooLong, t)
    else some (.int (Decimal.ofDigits whole), t)

/-- A number is read part by part. -/
theorem decimalTail_eq (whole t : Text) : decimalTail whole t = (fractionPart t).bind fun f =>
    (exponentPart f.2).bind fun p => numberFrom whole f.1 p.1 p.2 := by
  obtain _ | ⟨c, r⟩ := t
  · rfl
  · by_cases hdot : c = '.'
    · subst hdot
      simp only [decimalTail, fractionPart]
      cases r.head?.any isAsciiDigit with
      | true => cases (digitRun isAsciiDigit r).2.head? == some '_' <;> rfl
      | false => rfl
    · have hpart : fractionPart (c :: r) = some (none, c :: r) := by simp [fractionPart, hdot]
      rw [hpart, decimalTail]
      · rfl
      · exact fun r heq => hdot (List.cons.inj heq).1

section

variable {x : Text} (hx : EndsInset x)
include hx

/-- Characters are taken no further. -/
theorem takeWhile_append_closes {p : Char → Bool} (hnewline : p '\n' = false) (hbracket : p ')' = false)
    (r : Text) : (r ++ x).takeWhile p = r.takeWhile p := by
  obtain ⟨d, y, rfl, hd⟩ := hx.exists_cons (P := fun d => p d = false) hnewline hbracket
  induction r with
  | nil => simp [hd]
  | cons c r ih => simp only [List.cons_append, List.takeWhile_cons, ih]

/-- Characters are dropped no further. -/
theorem dropWhile_append_closes {p : Char → Bool} (hnewline : p '\n' = false) (hbracket : p ')' = false)
    (r : Text) : (r ++ x).dropWhile p = r.dropWhile p ++ x := by
  obtain ⟨d, y, rfl, hd⟩ := hx.exists_cons (P := fun d => p d = false) hnewline hbracket
  induction r with
  | nil => simp [hd]
  | cons c r ih =>
      simp only [List.cons_append, List.dropWhile_cons, ih]
      split <;> rfl

/-- Whether the first character is of a kind. -/
theorem any_head_append_closes {p : Char → Bool} (hnewline : p '\n' = false) (hbracket : p ')' = false)
    (r : Text) : (r ++ x).head?.any p = r.head?.any p := by
  obtain ⟨d, y, rfl, hd⟩ := hx.exists_cons (P := fun d => p d = false) hnewline hbracket
  cases r with
  | nil => simp [hd]
  | cons c r => rfl

/-- Whether the first character is a certain one. -/
theorem head_append_closes {c : Char} (hnewline : c ≠ '\n') (hbracket : c ≠ ')') (r : Text) :
    ((r ++ x).head? == some c) = (r.head? == some c) := by
  cases r with
  | nil => simpa using hx.head_ne hnewline hbracket
  | cons c r => rfl

/-- Whether a text starts with a word. -/
theorem isPrefixOf_append_closes {w : Text} (hnewline : '\n' ∉ w) (hbracket : ')' ∉ w) (r : Text) :
    w.isPrefixOf (r ++ x) = w.isPrefixOf r := by
  obtain ⟨d, y, rfl, hd⟩ := hx.exists_cons (P := fun d => d ∉ w) hnewline hbracket
  clear hx hnewline hbracket
  induction w generalizing r with
  | nil => simp [List.isPrefixOf]
  | cons c w ih =>
      cases r with
      | nil =>
          have hc : (c == d) = false := beq_false_of_ne fun heq => hd (heq ▸ List.mem_cons_self)
          simp [List.isPrefixOf, hc]
      | cons c' r =>
          simp only [List.cons_append, List.isPrefixOf, ih r fun h => hd (List.mem_cons_of_mem _ h)]

/-! ## Numbers -/

/-- Digits are read no further. -/
theorem digitRun_append {p : Char → Bool} (hscore : p '_' = false) (hnewline : p '\n' = false)
    (hbracket : p ')' = false) (r : Text) :
    digitRun p (r ++ x) = ((digitRun p r).1, (digitRun p r).2 ++ x) := by
  obtain ⟨d, y, rfl, hd, hne⟩ := hx.exists_cons (P := fun d => p d = false ∧ d ≠ '_')
    ⟨hnewline, by decide⟩ ⟨hbracket, by decide⟩
  have hcons {c : Char} (hc : c ≠ '_') (r : Text) : digitRun p (c :: r) =
      if p c then (c :: (digitRun p r).1, (digitRun p r).2) else ([], c :: r) := by
    rw [digitRun]
    rintro c r rfl
    exact absurd rfl hc
  fun_induction digitRun p r with
  | case1 c r hc ds rest heq ih => simp [digitRun, hc, ih, heq]
  | case2 c r hc => simp [digitRun, hc]
  | case3 c r hne' hc ds rest heq ih =>
      have hc' : c ≠ '_' := fun h => by rw [h, hscore] at hc; cases hc
      rw [List.cons_append, hcons hc', if_pos hc, ih, heq]
  | case4 c r hne' hc =>
      by_cases hc' : c = '_'
      · subst hc'
        cases r with
        | nil => simp [digitRun, hd]
        | cons c r => exact absurd rfl (hne' c r rfl)
      · rw [List.cons_append, hcons hc', if_neg hc]
  | case5 => simp [hcons hne, hd]

/-- Whether a word follows a number. -/
theorem wordFollows_append (r : Text) : wordFollows (r ++ x) = wordFollows r := by
  have hfront (w : String) (hw : '\n' ∉ w.toList ∧ ')' ∉ w.toList) :=
    isPrefixOf_append_closes hx hw.1 hw.2 r
  have hwhole (w : String) (hw : '\n' ∉ w.toList ∧ ')' ∉ w.toList) :
      (w.toList.isPrefixOf (r ++ x) && !((r ++ x).drop w.length).head?.any isNameLike) =
        (w.toList.isPrefixOf r && !(r.drop w.length).head?.any isNameLike) := by
    rw [hfront w hw]
    cases hr : w.toList.isPrefixOf r with
    | false => rfl
    | true =>
        have hle : w.length ≤ r.length := by
          rw [← String.length_toList]
          exact (List.isPrefixOf_iff_prefix.1 hr).length_le
        rw [List.drop_append_of_le_length hle, any_head_append_closes hx (by decide) (by decide)]
  simp only [wordFollows]
  rw [hwhole "and" (by decide), hwhole "else" (by decide), hwhole "for" (by decide), hwhole "or" (by decide),
    hwhole "not" (by decide), hfront "if" (by decide), hfront "in" (by decide), hfront "is" (by decide)]

/-- Whether a number ends. -/
theorem numberEnds_append (r : Text) : numberEnds (r ++ x) = numberEnds r := by
  rw [numberEnds, numberEnds, wordFollows_append hx, any_head_append_closes hx (by decide) (by decide)]

/-- An integer behind a mark is read no further. -/
theorem basedInteger_append {base : Nat} {p : Char → Bool} (hscore : p '_' = false) (hnewline : p '\n' = false)
    (hbracket : p ')' = false) (r : Text) :
    basedInteger base p (r ++ x) = (basedInteger base p r).map fun n => (n.1, n.2 ++ x) := by
  rw [basedInteger, basedInteger, digitRun_append hx hscore hnewline hbracket]
  dsimp only
  rw [head_append_closes hx (by decide) (by decide), any_head_append_closes hx (by decide) (by decide),
    numberEnds_append hx]
  split <;> rfl

/-- The sign of an exponent and its digits are read no further. -/
theorem exponentDigits_append (e : Char) (he : e = 'e' ∨ e = 'E') (r : Text) :
    exponentPart (e :: (r ++ x)) = (exponentPart (e :: r)).map fun n => (n.1, n.2 ++ x) := by
  have hdigits (r : Text) := digitRun_append hx (p := isAsciiDigit) (by decide) (by decide) (by decide) r
  have hhead (r : Text) := any_head_append_closes hx (p := isAsciiDigit) (by decide) (by decide) r
  have hscore (r : Text) := head_append_closes hx (c := '_') (by decide) (by decide) r
  have he' : (decide (e = 'e') || decide (e = 'E')) = true := by simpa using he
  obtain _ | ⟨c, r⟩ := r
  · cases hx <;> simp [exponentPart, he', isAsciiDigit]
  · by_cases hplus : c = '+'
    · subst hplus
      simp only [exponentPart, List.cons_append, he', if_true, hhead, hdigits, hscore]
      split
      · split <;> rfl
      · rfl
    · by_cases hminus : c = '-'
      · subst hminus
        simp only [exponentPart, List.cons_append, he', if_true, hhead, hdigits, hscore]
        split
        · split <;> rfl
        · rfl
      · have hplain (r : Text) : exponentPart (e :: c :: r) =
            if isAsciiDigit c then
              if (digitRun isAsciiDigit (c :: r)).2.head? == some '_' then none
              else some (some (Decimal.ofDigits (digitRun isAsciiDigit (c :: r)).1 : Int),
                (digitRun isAsciiDigit (c :: r)).2)
            else some (none, e :: c :: r) := by
          simp [exponentPart, he', hplus, hminus]
        rw [List.cons_append, hplain, hplain, ← List.cons_append, hdigits, hscore]
        split
        · split <;> rfl
        · rfl

/-- An exponent is read no further. -/
theorem exponentPart_append (r : Text) :
    exponentPart (r ++ x) = (exponentPart r).map fun n => (n.1, n.2 ++ x) := by
  obtain _ | ⟨e, r⟩ := r
  · cases hx <;> rfl
  · by_cases he : e = 'e' ∨ e = 'E'
    · exact exponentDigits_append hx e he r
    · have he' : (decide (e = 'e') || decide (e = 'E')) = false := by simpa using he
      simp [exponentPart, he']

/-- A fraction is read no further. -/
theorem fractionPart_append (r : Text) :
    fractionPart (r ++ x) = (fractionPart r).map fun n => (n.1, n.2 ++ x) := by
  have hdigits (r : Text) := digitRun_append hx (p := isAsciiDigit) (by decide) (by decide) (by decide) r
  have hhead (r : Text) := any_head_append_closes hx (p := isAsciiDigit) (by decide) (by decide) r
  have hscore (r : Text) := head_append_closes hx (c := '_') (by decide) (by decide) r
  obtain _ | ⟨c, r⟩ := r
  · cases hx <;> rfl
  · by_cases hdot : c = '.'
    · subst hdot
      simp only [List.cons_append, fractionPart, hdigits, hhead, hscore]
      split
      · split <;> rfl
      · rfl
    · simp [fractionPart, hdot]

/-- A number that is made of its parts ends where it does. -/
theorem numberFrom_append (whole : Text) (fraction : Option Text) (power : Option Int) (r : Text) :
    numberFrom whole fraction power (r ++ x) =
      (numberFrom whole fraction power r).map fun n => (n.1, n.2 ++ x) := by
  have hends (r : Text) := numberEnds_append hx r
  have hplain {t : Text} (ht : t.head? ≠ some 'j' ∧ t.head? ≠ some 'J') : numberFrom whole fraction power t =
      if !numberEnds t then none
      else if fraction.isSome || power.isSome then
        some (.float (Decimal.Numeral.value ⟨whole, fraction, power⟩ false), t)
      else if whole.head? == some '0' && whole.any (· ≠ '0') then none
      else if 4300 < whole.length then some (.tooLong, t)
      else some (.int (Decimal.ofDigits whole), t) := by
    unfold numberFrom
    split
    · exact absurd rfl ht.1
    · exact absurd rfl ht.2
    · rfl
  by_cases hj : r.head? = some 'j' ∨ r.head? = some 'J'
  · obtain _ | ⟨c, r⟩ := r
    · simp at hj
    · obtain rfl | rfl : c = 'j' ∨ c = 'J' := by simpa using hj
      all_goals
        simp only [numberFrom, List.cons_append, hends]
        split <;> rfl
  · have hr := not_or.1 hj
    have hrx : (r ++ x).head? ≠ some 'j' ∧ (r ++ x).head? ≠ some 'J' := by
      obtain _ | ⟨c, r⟩ := r
      · exact ⟨hx.head_ne (by decide) (by decide), hx.head_ne (by decide) (by decide)⟩
      · exact hr
    rw [hplain hr, hplain hrx, hends]
    repeat' split
    all_goals rfl

/-- The rest of a number behind its whole digits is read no further. -/
theorem decimalTail_append (whole r : Text) :
    decimalTail whole (r ++ x) = (decimalTail whole r).map fun n => (n.1, n.2 ++ x) := by
  rw [decimalTail_eq, decimalTail_eq, fractionPart_append hx, Option.bind_map, Option.map_bind]
  refine Option.bind_congr fun f _ => ?_
  rw [Function.comp_apply, Function.comp_apply, exponentPart_append hx, Option.bind_map, Option.map_bind]
  exact Option.bind_congr fun p _ => numberFrom_append hx ..

/-- A number is read no further. -/
theorem lexNumber_append (r : Text) :
    lexNumber (r ++ x) = (lexNumber r).map fun n => (n.1, n.2 ++ x) := by
  have hplain {t : Text} (h : ∀ m ∈ ['x', 'X', 'o', 'O', 'b', 'B'], ∀ r, t ≠ '0' :: m :: r) : lexNumber t =
      if (digitRun isAsciiDigit t).2.head? == some '_' && !(digitRun isAsciiDigit t).1.isEmpty then none
      else decimalTail (digitRun isAsciiDigit t).1 (digitRun isAsciiDigit t).2 := by
    unfold lexNumber
    split <;> first | rfl | exact absurd rfl (h _ (by decide) _)
  by_cases hbased : ∃ m ∈ ['x', 'X', 'o', 'O', 'b', 'B'], ∃ r', r = '0' :: m :: r'
  · obtain ⟨m, hm, r, rfl⟩ := hbased
    simp only [List.mem_cons, List.not_mem_nil, or_false] at hm
    rcases hm with rfl | rfl | rfl | rfl | rfl | rfl
    all_goals exact basedInteger_append hx (by decide) (by decide) (by decide) r
  · have hr : ∀ m ∈ ['x', 'X', 'o', 'O', 'b', 'B'], ∀ r', r ≠ '0' :: m :: r' :=
      fun m hm r' h => hbased ⟨m, hm, r', h⟩
    have hrx : ∀ m ∈ ['x', 'X', 'o', 'O', 'b', 'B'], ∀ r', r ++ x ≠ '0' :: m :: r' := by
      intro m hm r' heq
      obtain _ | ⟨c, _ | ⟨d, r⟩⟩ := r
      · cases hx <;> cases heq
      · cases hx <;> cases heq <;> exact absurd hm (by decide)
      · cases heq
        exact hr m hm r rfl
    rw [hplain hr, hplain hrx, digitRun_append hx (by decide) (by decide) (by decide)]
    dsimp only
    rw [head_append_closes hx (by decide) (by decide), decimalTail_append hx]
    split <;> rfl

/-! ## Marks -/

/-- A mark is read no further. -/
theorem lexMark_append (c : Char) (r : Text) :
    lexMark (c :: r ++ x) = (lexMark (c :: r)).map fun n => (n.1, n.2 ++ x) := by
  have hfind (marks : List String) (n : Nat) (hmarks : ∀ m ∈ marks,
      m.toList.length = n ∧ '\n' ∉ m.toList ∧ ')' ∉ m.toList) :
      (marks.find? fun m => m.toList.isPrefixOf (c :: r ++ x)) =
          (marks.find? fun m => m.toList.isPrefixOf (c :: r)) ∧
        ∀ m, (marks.find? fun m => m.toList.isPrefixOf (c :: r)) = some m → n ≤ (c :: r).length := by
    refine ⟨?_, fun m hm => ?_⟩
    · rw [← List.head?_filter, ← List.head?_filter, List.filter_congr fun m hm => ?_]
      exact isPrefixOf_append_closes hx (hmarks m hm).2.1 (hmarks m hm).2.2 _
    · rw [← (hmarks m (List.mem_of_find?_eq_some hm)).1]
      have hfound := List.find?_some (p := fun m : String => m.toList.isPrefixOf (c :: r)) hm
      exact (List.isPrefixOf_iff_prefix.1 hfound).length_le
  obtain ⟨h3, hlen3⟩ := hfind marks3 3 (by decide)
  obtain ⟨h2, hlen2⟩ := hfind marks2 2 (by decide)
  unfold lexMark
  rw [h3, h2]
  cases hm3 : marks3.find? fun m => m.toList.isPrefixOf (c :: r) with
  | some m => 
      dsimp only
      rw [List.drop_append_of_le_length (hlen3 m hm3)]
      rfl
  | none =>
      cases hm2 : marks2.find? fun m => m.toList.isPrefixOf (c :: r) with
      | some m =>
          dsimp only
          rw [List.drop_append_of_le_length (hlen2 m hm2)]
          rfl
      | none =>
          dsimp only [List.cons_append]
          split <;> rfl

end

/-! ## Strings -/

/-- A string ends with its closing quotes, whatever follows them. -/
theorem stringBody_eq_some {q : Char} {triple : Bool} {t body rest : Text}
    (h : stringBody q triple t = some (body, rest)) :
    ∃ taken, (triple → 2 ≤ taken.length) ∧ t = taken ++ q :: rest ∧
      ∀ y, stringBody q triple (taken ++ q :: y) = some (body, y) := by
  have hescape {c : Char} {r : Text} (h : c = '\\' → r = [] → False)
      (h' : ∀ d s, c = '\\' → r = d :: s → False) : c ≠ '\\' := by
    cases r with
    | nil => exact fun hc => h hc rfl
    | cons d s => exact fun hc => h' d s hc rfl
  fun_induction stringBody q triple t generalizing body rest with
  | case1 | case2 => cases h
  | case3 c r ih =>
      obtain ⟨⟨b, t⟩, hb, heq⟩ := Option.map_eq_some_iff.1 h
      cases heq
      obtain ⟨taken, hlength, rfl, hy⟩ := ih hb
      refine ⟨'\\' :: c :: taken, fun ht => Nat.le_add_left 2 _, rfl, fun y => ?_⟩
      rw [List.cons_append, List.cons_append, stringBody_escape, hy]
      rfl
  | case4 c r h₁ h₂ htriple hc =>
      cases h
      obtain ⟨hq, hquotes⟩ := Bool.and_eq_true_iff.1 hc
      obtain rfl := of_decide_eq_true hq
      obtain ⟨r, rfl⟩ := List.isPrefixOf_iff_prefix.1 hquotes
      refine ⟨[c, c], fun _ => Nat.le_refl 2, rfl, fun y => ?_⟩
      have hfront : [c, c].isPrefixOf (c :: c :: y) := List.isPrefixOf_iff_prefix.2 ⟨y, rfl⟩
      rw [List.cons_append, stringBody_plain (hescape h₁ h₂), if_pos htriple, if_pos (by simp)]
      rfl
  | case5 c r h₁ h₂ htriple hc ih =>
      obtain ⟨⟨b, t⟩, hb, heq⟩ := Option.map_eq_some_iff.1 h
      cases heq
      obtain ⟨taken, hlength, rfl, hy⟩ := ih hb
      refine ⟨c :: taken, fun ht => Nat.le_succ_of_le (hlength ht), rfl, fun y => ?_⟩
      have hsame : [q, q].isPrefixOf (taken ++ q :: y) = [q, q].isPrefixOf (taken ++ q :: rest) := by
        obtain _ | ⟨a, _ | ⟨b, taken⟩⟩ := taken
        · cases hlength htriple
        · exact absurd (hlength htriple) (by simp)
        · simp [List.isPrefixOf]
      rw [List.cons_append, stringBody_plain (hescape h₁ h₂), if_pos htriple, hsame, if_neg hc, hy]
      rfl
  | case6 r htriple h₁ h₂ =>
      cases h
      refine ⟨[], fun ht => absurd ht htriple, rfl, fun y => ?_⟩
      rw [List.nil_append, stringBody_plain (hescape h₁ h₂), if_neg htriple, if_pos rfl]
  | case7 => cases h
  | case8 c r h₁ h₂ htriple hc hbreak ih =>
      obtain ⟨⟨b, t⟩, hb, heq⟩ := Option.map_eq_some_iff.1 h
      cases heq
      obtain ⟨taken, hlength, rfl, hy⟩ := ih hb
      refine ⟨c :: taken, fun ht => absurd ht htriple, rfl, fun y => ?_⟩
      rw [List.cons_append, stringBody_plain (hescape h₁ h₂), if_neg htriple, if_neg hc, if_neg hbreak, hy]
      rfl

/-- A string that ends in front of a line break is the same in front of other texts. -/
theorem stringBody_append {q : Char} {triple : Bool} {r body rest : Text} (hq : isQuote q)
    (h : stringBody q triple (r ++ ['\n']) = some (body, rest)) : ∃ r', r' <:+ r ∧ rest = r' ++ ['\n'] ∧
      ∀ x, stringBody q triple (r ++ x) = some (body, r' ++ x) := by
  obtain ⟨taken, -, heq, hy⟩ := stringBody_eq_some h
  obtain rfl | ⟨r', d, rfl⟩ := List.eq_nil_or_concat rest
  · obtain ⟨-, hbreak⟩ := List.append_inj' heq rfl
    cases hbreak
    cases hq
  · have heq : r ++ ['\n'] = (taken ++ q :: r') ++ [d] := by simpa using heq
    obtain ⟨rfl, hbreak⟩ := List.append_inj' heq rfl
    cases hbreak
    refine ⟨r', ⟨taken ++ [q], by simp⟩, by simp, fun x => ?_⟩
    rw [List.append_assoc, List.cons_append]
    exact hy _

/-- The literal that letters select for a text between quotes. -/
def StringLit.ofMarks (marks : Text) (body : Text) : StringLit :=
  let low := marks.map Char.toLower
  ⟨low.contains 'r', low.contains 'b', low.contains 'f', body⟩

/-- A string literal is closed by three quotes if it is opened by three. -/
theorem lexString_eq (marks : Text) (q : Char) (t : Text) : lexString marks q (q :: t) =
    ((stringBody q ([q, q].isPrefixOf t) (if [q, q].isPrefixOf t then t.drop 2 else t)).map
      fun r => (StringLit.ofMarks marks r.1, r.2), [q, q].isPrefixOf t) := by
  obtain _ | ⟨a, _ | ⟨b, r⟩⟩ := t
  · rfl
  · simp [lexString, List.isPrefixOf, StringLit.ofMarks]
  · by_cases ha : a = q
    · by_cases hb : b = q
      · simp [lexString, List.isPrefixOf, StringLit.ofMarks, ha, hb]
      · have hb' : (q == b) = false := beq_false_of_ne (Ne.symm hb)
        simp [lexString, List.isPrefixOf, StringLit.ofMarks, hb, hb']
    · have ha' : (q == a) = false := beq_false_of_ne (Ne.symm ha)
      simp [lexString, List.isPrefixOf, StringLit.ofMarks, ha, ha']

/-- A string literal in front of a line break is the same in front of other ends. -/
theorem lexString_append {marks : Text} {q : Char} {r rest : Text} {lit : StringLit} {triple : Bool}
    (hq : isQuote q) (h : lexString marks q (q :: (r ++ ['\n'])) = (some (lit, rest), triple)) :
    ∃ r', r' <:+ r ∧ rest = r' ++ ['\n'] ∧
      ∀ x, EndsInset x → lexString marks q (q :: (r ++ x)) = (some (lit, r' ++ x), triple) := by
  have hquotes {x : Text} (hx : EndsInset x) : [q, q].isPrefixOf (r ++ x) = [q, q].isPrefixOf r := by
    have hmem {d : Char} (h : d ∈ [q, q]) : isQuote d := by
      rw [List.eq_of_mem_replicate (n := 2) h]
      exact hq
    exact isPrefixOf_append_closes hx (fun h => by cases hmem h) (fun h => by cases hmem h) r
  have hdrop (x : Text) : (if [q, q].isPrefixOf r then (r ++ x).drop 2 else r ++ x) =
      (if [q, q].isPrefixOf r then r.drop 2 else r) ++ x := by
    split
    · next hfront =>
        exact List.drop_append_of_le_length (List.isPrefixOf_iff_prefix.1 hfront).length_le
    · rfl
  rw [lexString_eq, hquotes (.newline []), hdrop, Prod.mk.injEq] at h
  obtain ⟨hmap, rfl⟩ := h
  obtain ⟨⟨body, rest⟩, hbody, heq⟩ := Option.map_eq_some_iff.1 hmap
  cases heq
  obtain ⟨r', hsuffix, rfl, hx⟩ := stringBody_append hq hbody
  refine ⟨r', hsuffix.trans ?_, rfl, fun x hcloses => ?_⟩
  · split
    · exact List.drop_suffix 2 r
    · exact List.suffix_rfl
  · rw [lexString_eq, hquotes hcloses, hdrop, hx]
    rfl

/-! ## What is left of a line -/

/-- A text is what another one goes on with on the same line. -/
def OnLine (r t : Text) : Prop :=
  ∃ w, '\n' ∉ w ∧ w ++ r = t

namespace OnLine

variable {r s t : Text}

theorem refl (t : Text) : OnLine t t := ⟨[], List.not_mem_nil, rfl⟩

theorem trans (h : OnLine r s) (h' : OnLine s t) : OnLine r t := by
  obtain ⟨w, hw, rfl⟩ := h
  obtain ⟨w', hw', rfl⟩ := h'
  refine ⟨w' ++ w, ?_, List.append_assoc _ _ _⟩
  rw [List.mem_append]
  exact fun hmem => hmem.elim hw' hw

theorem cons {c : Char} (h : OnLine r t) (hc : c ≠ '\n') : OnLine r (c :: t) :=
  h.trans ⟨[c], by simpa using hc.symm, rfl⟩

theorem suffix (h : OnLine r t) : r <:+ t := by
  obtain ⟨w, -, rfl⟩ := h
  exact List.suffix_append w r

theorem of_append {w : Text} (hw : '\n' ∉ w) : OnLine r (w ++ r) := ⟨w, hw, rfl⟩

/-- What is left behind characters of which none is a line break. -/
theorem dropWhile {p : Char → Bool} (hp : p '\n' = false) (t : Text) : OnLine (t.dropWhile p) t := by
  refine ⟨t.takeWhile p, fun hmem => ?_, List.takeWhile_append_dropWhile⟩
  have hbreak := List.mem_takeWhile_imp hmem
  rw [hp] at hbreak
  cases hbreak

end OnLine

/-- What is left behind digits. -/
theorem onLine_digitRun {p : Char → Bool} (hp : p '\n' = false) (t : Text) :
    OnLine (digitRun p t).2 t := by
  have hne {c : Char} (hc : p c) : c ≠ '\n' := fun heq => by
    rw [heq, hp] at hc
    cases hc
  fun_induction digitRun p t with
  | case1 c r hc ds rest heq ih =>
      rw [heq] at ih
      exact (ih.cons (hne hc)).cons (by decide)
  | case3 c r _ hc ds rest heq ih =>
      rw [heq] at ih
      exact ih.cons (hne hc)
  | case2 | case4 | case5 => exact .refl _

/-- What is left behind an exponent. -/
theorem onLine_exponentPart {t rest : Text} {power : Option Int}
    (h : exponentPart t = some (power, rest)) : OnLine rest t := by
  have hdigits (t : Text) : OnLine (digitRun isAsciiDigit t).2 t := onLine_digitRun (by decide) t
  unfold exponentPart at h
  dsimp only at h
  split at h
  · next e r =>
      by_cases he : e = 'e' || e = 'E'
      · have hbreak : e ≠ '\n' := by
          rw [Bool.or_eq_true, decide_eq_true_eq, decide_eq_true_eq] at he
          obtain rfl | rfl := he <;> decide
        rw [if_pos he] at h
        repeat' split at h
        all_goals cases h
        all_goals first
          | exact .refl _
          | exact ((hdigits _).cons (by decide)).cons hbreak
          | exact (hdigits _).cons hbreak
      · rw [if_neg he] at h
        cases h
        exact .refl _
  · cases h
    exact .refl _

/-- What is left behind a fraction. -/
theorem onLine_fractionPart {t rest : Text} {fraction : Option Text}
    (h : fractionPart t = some (fraction, rest)) : OnLine rest t := by
  unfold fractionPart at h
  dsimp only at h
  repeat' split at h
  all_goals cases h
  · exact (onLine_digitRun (by decide) _).cons (by decide)
  · exact (OnLine.refl _).cons (by decide)
  · exact .refl _

/-- What is left behind a number that is made of its parts. -/
theorem onLine_numberFrom {whole t rest : Text} {fraction : Option Text} {power : Option Int} {n : Numeric}
    (h : numberFrom whole fraction power t = some (n, rest)) : OnLine rest t := by
  unfold numberFrom at h
  repeat' split at h
  all_goals cases h
  all_goals first | exact .refl _ | exact (OnLine.refl _).cons (by decide)

/-- A number takes up its first character. -/
theorem onLine_lexNumber {c : Char} {r rest : Text} {n : Numeric}
    (hc : isAsciiDigit c || (c == '.' && r.head?.any isAsciiDigit)) (h : lexNumber (c :: r) = some (n, rest)) :
    OnLine rest r := by
  have hbased {base : Nat} {p : Char → Bool} {t : Text} (hp : p '\n' = false)
      (h : basedInteger base p t = some (n, rest)) : OnLine rest t := by
    unfold basedInteger at h
    dsimp only at h
    split at h <;> cases h
    exact onLine_digitRun hp _
  unfold lexNumber at h
  split at h
  case h_7 =>
    split at h
    next whole tail hrun =>
      split at h
      · cases h
      · rw [decimalTail_eq] at h
        obtain ⟨f, hf, h⟩ := Option.bind_eq_some_iff.1 h
        obtain ⟨e, he, h⟩ := Option.bind_eq_some_iff.1 h
        refine ((onLine_numberFrom h).trans (onLine_exponentPart he)).trans ?_
        by_cases hdigit : isAsciiDigit c
        · have hne : c ≠ '_' := fun heq => by rw [heq] at hdigit; cases hdigit
          refine (onLine_fractionPart hf).trans ?_
          rw [digitRun, if_pos hdigit] at hrun
          · cases hrun
            exact onLine_digitRun (by decide) _
          · exact fun _ _ heq => absurd heq hne
        · obtain rfl : c = '.' := by
            rw [Bool.eq_false_iff.2 hdigit, Bool.false_or, Bool.and_eq_true] at hc
            exact beq_iff_eq.1 hc.1
          cases hrun
          change fractionPart ('.' :: r) = some f at hf
          rw [fractionPart] at hf
          dsimp only at hf
          repeat' split at hf
          all_goals cases hf
          · exact onLine_digitRun (by decide) _
          · exact .refl _
  all_goals next heq =>
    cases heq
    exact (hbased (by decide) h).cons (by decide)

/-- What is left behind a mark. -/
theorem onLine_lexMark {c : Char} {r rest : Text} {m : String} (h : lexMark (c :: r) = some (m, rest)) :
    m.toList.head? = some c ∧ OnLine rest r := by
  have hfound {marks : List String} {n : Nat} {m : String} (hmarks : ∀ m ∈ marks,
      m.toList.length = n + 1 ∧ '\n' ∉ m.toList)
      (hm : (marks.find? fun m => m.toList.isPrefixOf (c :: r)) = some m) :
      m.toList.head? = some c ∧ OnLine (r.drop n) r := by
    obtain ⟨hlength, hbreak⟩ := hmarks m (List.mem_of_find?_eq_some hm)
    obtain ⟨y, hy⟩ := List.isPrefixOf_iff_prefix.1
      (List.find?_some (p := fun m : String => m.toList.isPrefixOf (c :: r)) hm)
    cases hlist : m.toList with
    | nil =>
        rw [hlist] at hlength
        cases hlength
    | cons d w =>
        rw [hlist] at hlength hbreak hy
        obtain ⟨rfl, rfl⟩ := List.cons.inj hy
        refine ⟨rfl, ?_⟩
        change OnLine (List.drop n (w ++ y)) (w ++ y)
        rw [← Nat.succ.inj hlength, List.drop_left]
        exact .of_append fun hmem => hbreak (List.mem_cons_of_mem _ hmem)
  unfold lexMark at h
  dsimp only at h
  cases hm3 : marks3.find? fun m => m.toList.isPrefixOf (c :: r) with
  | some m =>
      rw [hm3] at h
      cases h
      exact hfound (by decide) hm3
  | none =>
      cases hm2 : marks2.find? fun m => m.toList.isPrefixOf (c :: r) with
      | some m =>
          rw [hm3, hm2] at h
          cases h
          exact hfound (by decide) hm2
      | none =>
          rw [hm3, hm2] at h
          dsimp only at h
          split at h <;> cases h
          exact ⟨by simp, .refl _⟩

/-! ## One token -/

/-- What a step leads to when it takes up one token: the token, which ends no expression, and the state
behind it, where an end of the text is left. -/
structure Taken (r : Text) (l : Nat) where
  lexeme : Lexeme
  endLine : Nat
  depth : Nat
  line : Nat
  opens : List (Char × Nat)
  rest : Text
  isEnd_eq : lexeme.isEnd = false
  not_indent : lexeme ≠ .indent
  suffix : rest <:+ r

/-- The step in front of a text, with more brackets open around it. -/
def Taken.step {r : Text} {l : Nat} (k : Taken r l) (outer : List (Char × Nat)) (y : Text)
    (columns : List (Nat × Nat)) : LexStep :=
  .more [⟨k.lexeme, l, k.endLine, k.depth + outer.length⟩] (.within (k.rest ++ y) k.line columns (k.opens ++ outer))

/-- A step that takes up one token in front of a line break takes up the same one in front of other ends,
with more brackets open around it. -/
def TakesOne (r : Text) (l : Nat) (o : List (Char × Nat))
    (step : Text → List (Nat × Nat) → List (Char × Nat) → LexStep) : Prop :=
  ∀ columns ts s, step ['\n'] columns o = .more ts s → ∃ k : Taken r l,
    LexStep.more ts s = k.step [] ['\n'] columns ∧ ∀ y columns' outer, EndsInset y →
      k.depth + outer.length ≤ maxOpen → step y columns' (o ++ outer) = k.step outer y columns'

section

variable {r : Text} {l : Nat} {o : List (Char × Nat)}

/-- A token on one line. -/
theorem takesOne_emit {r' : Text} {x : Lexeme} (hx : x.isEnd = false) (hindent : x ≠ .indent) (hr : r' <:+ r)
    {u : Text → Text} :
    TakesOne r l o fun y columns o => (LexState.within (u y) l columns o).emit x (r' ++ y) := by
  intro columns ts s h
  cases h
  exact ⟨⟨x, l, o.length, l, o, r', hx, hindent, hr⟩, by simp [Taken.step], fun y columns' outer _ _ => by
    simp [Taken.step, LexState.emit]⟩

/-- A string literal. -/
theorem takesOne_string {w t : Text} {q : Char} (hq : isQuote q) (ht : t <:+ r) {u : Text → Text} :
    TakesOne r l o fun y columns o => (LexState.within (u y) l columns o).string w q (q :: (t ++ y)) := by
  intro columns ts s h
  simp only [LexState.string] at h
  split at h
  · cases h
  · next lit rest triple hlit =>
    cases h
    obtain ⟨r', hsuffix, rfl, hx⟩ := lexString_append hq hlit
    refine ⟨⟨.string lit, l + Text.breaks lit.body, o.length, l + Text.breaks lit.body, o, r', rfl, by simp,
      hsuffix.trans ht⟩, by simp [Taken.step], fun y columns' outer hy _ => ?_⟩
    simp [LexState.string, hx y hy, Taken.step]

/-- Two steps that are the same in front of an end. -/
theorem TakesOne.congr {f g : Text → List (Nat × Nat) → List (Char × Nat) → LexStep} (h : TakesOne r l o f)
    (heq : ∀ y columns o, EndsInset y → g y columns o = f y columns o) : TakesOne r l o g := by
  intro columns ts s hmore
  rw [heq _ _ _ (.newline [])] at hmore
  obtain ⟨k, hk, hy⟩ := h columns ts s hmore
  exact ⟨k, hk, fun y columns' outer hcloses hdepth => by rw [heq _ _ _ hcloses, hy y columns' outer hcloses hdepth]⟩

/-- A step that does not go on. -/
theorem takesOne_of_last {step : Text → List (Nat × Nat) → List (Char × Nat) → LexStep}
    (h : ∀ columns, ∃ ts, step ['\n'] columns o = .last ts) : TakesOne r l o step := by
  intro columns ts s hmore
  obtain ⟨last, hlast⟩ := h columns
  cases hmore.symm.trans hlast

/-- The brackets. -/
def brackets : List Char := ['(', '[', '{', ')', ']', '}']

/-- A mark that is no bracket. -/
theorem LexState.mark_plain (s : LexState) {m : String} (h : ∀ c ∈ brackets, m.toList ≠ [c]) (rest : Text) :
    s.mark m rest = s.emit (.op m) rest := by
  unfold LexState.mark
  split
  · next c hc =>
    have hno (d : Char) (hd : d ∈ brackets) : c ≠ d := fun heq => h d hd (heq ▸ hc)
    simp [hno '(' (by decide), hno '[' (by decide), hno '{' (by decide), hno ')' (by decide), hno ']' (by decide),
      hno '}' (by decide)]
  · rfl

/-- An opening bracket. -/
theorem LexState.mark_open (s : LexState) {m : String} {c : Char} (hm : m.toList = [c])
    (hc : c = '(' ∨ c = '[' ∨ c = '{') (rest : Text) : s.mark m rest =
      if maxOpen ≤ s.opens.length then .last (s.fault .tooManyOpen s.line)
      else { s with opens := (c, s.line) :: s.opens }.emit (.op m) rest := by
  unfold LexState.mark
  rw [hm]
  rcases hc with rfl | rfl | rfl <;> rfl

/-- A closing bracket. -/
theorem LexState.mark_close (s : LexState) {m : String} {c : Char} (hm : m.toList = [c])
    (hc : c = ')' ∨ c = ']' ∨ c = '}') (rest : Text) : s.mark m rest =
      match s.opens with
      | [] => .last (s.fault .unmatchedClose s.line)
      | (o, _) :: outer =>
        if closerOf o = c then { s with opens := outer }.emit (.op m) rest
        else .last ({ s with opens := outer }.fault .mismatchedClose s.line) := by
  unfold LexState.mark
  rw [hm]
  rcases hc with rfl | rfl | rfl <;> rfl

/-- A mark, which may open or close a bracket. -/
theorem takesOne_mark {m : String} {r' : Text} (hr : r' <:+ r) {u : Text → Text} :
    TakesOne r l o fun y columns o => (LexState.within (u y) l columns o).mark m (r' ++ y) := by
  by_cases hopen : ∃ c, m.toList = [c] ∧ (c = '(' ∨ c = '[' ∨ c = '{')
  · obtain ⟨c, hm, hc⟩ := hopen
    intro columns ts s h
    simp only [LexState.mark_open _ hm hc] at h ⊢
    split at h
    · cases h
    · cases h
      refine ⟨⟨.op m, l, o.length + 1, l, (c, l) :: o, r', rfl, fun h => (by cases h), hr⟩, by simp [Taken.step],
        fun y columns' outer _ hdepth => ?_⟩
      have hdepth : o.length + 1 + outer.length ≤ maxOpen := hdepth
      rw [if_neg (by rw [List.length_append]; omega)]
      simp [Taken.step, LexState.emit, Nat.add_right_comm]
  · by_cases hclose : ∃ c, m.toList = [c] ∧ (c = ')' ∨ c = ']' ∨ c = '}')
    · obtain ⟨c, hm, hc⟩ := hclose
      intro columns ts s h
      simp only [LexState.mark_close _ hm hc] at h ⊢
      obtain _ | ⟨⟨b, n⟩, o⟩ := o
      · cases h
      · dsimp only at h
        split at h
        · next hcloser =>
          cases h
          refine ⟨⟨.op m, l, o.length, l, o, r', rfl, fun h => (by cases h), hr⟩, by simp [Taken.step],
            fun y columns' outer _ hdepth => ?_⟩
          simp [Taken.step, LexState.emit, hcloser]
        · cases h
    · refine (takesOne_emit rfl (fun h => by cases h) hr).congr fun y columns o _ =>
        LexState.mark_plain _ (fun c hc hm => ?_) _
      simp only [brackets, List.mem_cons, List.not_mem_nil, or_false] at hc
      rcases hc with hc | hc | hc | hc | hc | hc
      · exact hopen ⟨c, hm, .inl hc⟩
      · exact hopen ⟨c, hm, .inr (.inl hc)⟩
      · exact hopen ⟨c, hm, .inr (.inr hc)⟩
      · exact hclose ⟨c, hm, .inl hc⟩
      · exact hclose ⟨c, hm, .inr (.inl hc)⟩
      · exact hclose ⟨c, hm, .inr (.inr hc)⟩

/-- A word, which may be the letters of a string literal. -/
theorem takesOne_word (c : Char) (hlike : isNameLike c) (hquote : isQuote c = false)
    (hdigit : isAsciiDigit c = false) {u : Text → Text} :
    TakesOne r l o fun y columns o => (LexState.within (u y) l columns o).tokenAt c (r ++ y) := by
  have hdot : (c == '.') = false := beq_false_of_ne fun heq => by rw [heq] at hlike; cases hlike
  obtain ⟨w, hw⟩ : ∃ w, (c :: r).takeWhile isNameLike = w := ⟨_, rfl⟩
  obtain ⟨r', hr'⟩ : ∃ r', (c :: r).drop w.length = r' := ⟨_, rfl⟩
  have hpos : 0 < w.length := by
    rw [← hw, List.takeWhile_cons_of_pos hlike]
    exact Nat.succ_pos _
  have hle : w.length ≤ (c :: r).length := hw ▸ (List.takeWhile_prefix _).length_le
  have hsuffix : r' <:+ r := by
    rw [← hr', ← Nat.sub_add_cancel hpos, List.drop_succ_cons]
    exact List.drop_suffix _ _
  have hword {y : Text} (hy : EndsInset y) : (c :: (r ++ y)).takeWhile isNameLike = w := by
    rw [← List.cons_append, takeWhile_append_closes hy (by decide) (by decide), hw]
  have hdrop (y : Text) : (c :: (r ++ y)).drop w.length = r' ++ y := by
    rw [← List.cons_append, List.drop_append_of_le_length hle, hr']
  have hstep {y : Text} (hy : EndsInset y) (columns : List (Nat × Nat)) (o : List (Char × Nat)) :
      (LexState.within (u y) l columns o).tokenAt c (r ++ y) =
        if r'.head?.any isQuote && isStringMark w then
          (LexState.within (u y) l columns o).string w (r'.headD ' ') (r' ++ y)
        else if isName w then
          (LexState.within (u y) l columns o).emit (Lexeme.ofWord (String.ofList w)) (r' ++ y)
        else .last ((LexState.within (u y) l columns o).fault .badCharacter l) := by
    rw [LexState.tokenAt, hquote, if_neg Bool.false_ne_true, hdigit, hdot, Bool.false_and,
      Bool.false_or, if_neg Bool.false_ne_true, if_pos hlike, hword hy]
    dsimp only
    rw [hdrop]
    cases r' with
    | cons q r' => rfl
    | nil =>
        obtain ⟨d, y, rfl, hd⟩ := hy.exists_cons (P := fun d => isQuote d = false) (by decide) (by decide)
        simp [hd]
  by_cases hstring : r'.head?.any isQuote && isStringMark w
  · cases r' with
    | nil => cases hstring
    | cons q r' =>
        rw [Bool.and_eq_true] at hstring
        refine (takesOne_string (w := w) (u := u) hstring.1 ((List.suffix_cons q r').trans hsuffix)).congr
          fun y columns o hy => ?_
        rw [hstep hy, if_pos (by rw [hstring.1, hstring.2]; rfl)]
        rfl
  · by_cases hname : isName w
    · have hlexeme : (Lexeme.ofWord (String.ofList w)).isEnd = false ∧
          Lexeme.ofWord (String.ofList w) ≠ .indent := by
        rw [Lexeme.ofWord]
        split <;> exact ⟨rfl, by simp⟩
      refine (takesOne_emit (u := u) hlexeme.1 hlexeme.2 hsuffix).congr fun y columns o hy => ?_
      rw [hstep hy, if_neg hstring, if_pos hname]
    · refine takesOne_of_last fun columns => ?_
      rw [hstep (.newline []), if_neg hstring, if_neg hname]
      exact ⟨_, rfl⟩

/-- A number at its first character, in front of an end. -/
theorem tokenAt_number (s : LexState) {c : Char} {y : Text} (hy : EndsInset y) (hquote : isQuote c = false)
    (hdigit : isAsciiDigit c || (c == '.' && r.head?.any isAsciiDigit)) :
    s.tokenAt c (r ++ y) =
      match lexNumber (c :: r) with
      | some (n, rest) => s.emit (.number n) (rest ++ y)
      | none => .last (s.fault .badNumber s.line) := by
  have hhead : (r ++ y).head?.any isAsciiDigit = r.head?.any isAsciiDigit :=
    any_head_append_closes hy (by decide) (by decide) r
  rw [LexState.tokenAt, hquote, if_neg Bool.false_ne_true, hhead, if_pos hdigit, ← List.cons_append,
    lexNumber_append hy]
  cases lexNumber (c :: r) <;> rfl

/-- A mark at its first character, or a character that is none, in front of an end. -/
theorem tokenAt_mark (s : LexState) {c : Char} {y : Text} (hy : EndsInset y) (hquote : isQuote c = false)
    (hdigit : ¬ (isAsciiDigit c || (c == '.' && r.head?.any isAsciiDigit))) (hlike : ¬ isNameLike c) :
    s.tokenAt c (r ++ y) =
      match lexMark (c :: r) with
      | some (m, rest) => s.mark m (rest ++ y)
      | none =>
        if c.toNat < 0x20 || c.toNat = 0x7f then .last (s.fault .badCharacter s.line)
        else s.emit (.stray c) (r ++ y) := by
  have hhead : (r ++ y).head?.any isAsciiDigit = r.head?.any isAsciiDigit :=
    any_head_append_closes hy (by decide) (by decide) r
  rw [LexState.tokenAt, hquote, if_neg Bool.false_ne_true, hhead, if_neg hdigit, if_neg hlike,
    ← List.cons_append, lexMark_append hy]
  cases lexMark (c :: r) <;> rfl

/-- A token at its first character. -/
theorem takesOne_tokenAt (c : Char) {u : Text → Text} :
    TakesOne r l o fun y columns o => (LexState.within (u y) l columns o).tokenAt c (r ++ y) := by
  by_cases hquote : isQuote c
  · refine (takesOne_string (w := []) (u := u) hquote List.suffix_rfl).congr fun y columns o _ => ?_
    rw [LexState.tokenAt, if_pos hquote]
  have hquote := Bool.eq_false_iff.2 hquote
  by_cases hdigit : isAsciiDigit c || (c == '.' && r.head?.any isAsciiDigit)
  · cases hnumber : lexNumber (c :: r) with
    | none =>
        refine takesOne_of_last fun columns => ?_
        rw [tokenAt_number _ (.newline []) hquote hdigit, hnumber]
        exact ⟨_, rfl⟩
    | some n =>
        have htakes := takesOne_emit (l := l) (o := o) (u := u) (x := .number n.1) rfl (by simp)
          (onLine_lexNumber hdigit hnumber).suffix
        refine htakes.congr fun y columns o hy => ?_
        rw [tokenAt_number _ hy hquote hdigit, hnumber]
  by_cases hlike : isNameLike c
  · refine takesOne_word c hlike hquote (Bool.eq_false_iff.2 fun h => hdigit ?_)
    rw [h]
    rfl
  have hstep {y : Text} (hy : EndsInset y) (columns : List (Nat × Nat)) (o : List (Char × Nat)) :=
    tokenAt_mark (LexState.within (u y) l columns o) hy hquote hdigit hlike
  cases hmark : lexMark (c :: r) with
  | some m =>
      refine (takesOne_mark (u := u) (m := m.1) (onLine_lexMark hmark).2.suffix).congr fun y columns o hy => ?_
      rw [hstep hy, hmark]
  | none =>
      by_cases hcode : c.toNat < 0x20 || c.toNat = 0x7f
      · refine takesOne_of_last fun columns => ?_
        rw [hstep (.newline []), hmark]
        dsimp only
        rw [if_pos hcode]
        exact ⟨_, rfl⟩
      · have htakes := takesOne_emit (l := l) (o := o) (u := u) (x := .stray c) rfl (by simp)
          (List.suffix_rfl (l := r))
        refine htakes.congr fun y columns o hy => ?_
        rw [hstep hy, hmark]
        dsimp only
        rw [if_neg hcode]

end

end Stencil.Script
