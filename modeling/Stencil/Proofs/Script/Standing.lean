import Stencil.Proofs.Script.Dedent

/-!
# Which lines continue a logical line

Whether a line starts inside a bracket, inside a string or behind a backslash at a line end can be told by
going through the characters of a script one by one (`standings`), without a look at its tokens or lines.
-/

namespace Stencil.Script

/-! ## Standings -/

/-- What a character belongs to, outside or inside brackets: the code itself, a remark, a backslash with
the line break behind it, a string between marks, or an escape in one. -/
inductive Region where
  | code
  | remark
  | join
  | string (mark : Char) (triple : Bool)
  | escape (mark : Char) (triple : Bool)
  deriving Repr, DecidableEq

/-- Where a script stands in front of a character: the region, the further marks of a triple mark that
are still to come, the open brackets, whether a backslash at a line end is directly in front, and whether
the logical line has begun. -/
structure Standing where
  region : Region
  marks : Nat
  depth : Nat
  joined : Bool
  begun : Bool
  deriving Repr, DecidableEq

namespace Standing

/-- In front of the first character. -/
def start : Standing := ⟨.code, 0, 0, false, false⟩

/-- Inside a bracket or a string, or directly behind a backslash at a line end. -/
def inside (s : Standing) : Bool :=
  (match s.region with
  | .code | .remark => false
  | _ => true) || 0 < s.depth || s.joined

/-- Behind a line break in code or a remark. Outside brackets the logical line ends. -/
def endLine (s : Standing) : Standing :=
  { s with region := .code, begun := s.begun && 0 < s.depth }

/-- Behind a character of code, with what follows it. A backslash must stand at a line end, a carriage
return in front of a line break, and a closing bracket behind an opening one. -/
def nextCode (s : Standing) (c : Char) (rest : Text) : Option Standing :=
  if c = '\n' then some s.endLine
  else if c = '\r' then if rest.head? = some '\n' then some s else none
  else if isRowGap c then some s
  else if c = '#' then some { s with region := .remark }
  else if c = '\\' then if startsBreak rest then some { s with region := .join } else none
  else if isRowQuote c then
    if [c, c].isPrefixOf rest then some { s with region := .string c true, marks := 2, begun := true }
    else some { s with region := .string c false, begun := true }
  else if c = '(' || c = '[' || c = '{' then some { s with depth := s.depth + 1, begun := true }
  else if c = ')' || c = ']' || c = '}' then
    if s.depth = 0 then none else some { s with depth := s.depth - 1, begun := true }
  else some { s with begun := true }

/-- Behind a character, with what follows it. A string between single marks ends on its line, escaped
line breaks aside. -/
def next (s : Standing) (c : Char) (rest : Text) : Option Standing :=
  let s := { s with joined := false }
  if 0 < s.marks then if isRowQuote c then some { s with marks := s.marks - 1 } else none
  else
    match s.region with
    | .code => s.nextCode c rest
    | .remark =>
      if c = '\n' then some s.endLine
      else if c = '\r' && rest.head? ≠ some '\n' then none
      else some s
    | .join => some (if c = '\n' then { s with region := .code, joined := true } else s)
    | .string mark triple =>
      if c = '\\' then some { s with region := .escape mark triple }
      else if c = mark then
        if triple then
          if [mark, mark].isPrefixOf rest then some { s with region := .code, marks := 2 } else some s
        else some { s with region := .code }
      else if c = '\n' && !triple then none
      else some s
    | .escape mark triple =>
      some (if c = '\r' && rest.head? = some '\n' then s else { s with region := .string mark triple })

/-- Whether a script may end here: a string between single marks is closed. -/
def mayEnd (s : Standing) : Bool :=
  match s.region with
  | .string _ false | .escape _ false => false
  | _ => true

end Standing

/-- The standings at the start of each further line of a script, and at its end. -/
def standings (s : Standing) : Text → Option (List Standing × Standing)
  | [] => if s.mayEnd then some ([], s) else none
  | c :: rest => do
    let s' ← s.next c rest
    let (starts, last) ← standings s' rest
    return (if c = '\n' then s' :: starts else starts, last)

namespace Standing

variable {s s' : Standing} {c : Char} {rest : Text}

/-- A backslash at the line end before does not matter for what a character does. -/
theorem standings_unjoined (s : Standing) (c : Char) (rest : Text) :
    standings { s with joined := false } (c :: rest) = standings s (c :: rest) := rfl

/-- A character that is no line break. -/
theorem standings_cons (hc : c ≠ '\n') (h : s.next c rest = some s') :
    standings s (c :: rest) = standings s' rest := by
  rw [standings, h, Option.bind_eq_bind, Option.bind_some]
  cases standings s' rest <;> simp [hc]

/-- A line break. -/
theorem standings_break (h : s.next '\n' rest = some s') :
    standings s ('\n' :: rest) = (standings s' rest).map fun x => (s' :: x.1, x.2) := by
  rw [standings, h, Option.bind_eq_bind, Option.bind_some]
  cases standings s' rest <;> rfl

/-- Standings from which a character leads to the same one. -/
theorem standings_congr {u : Standing} (h : s.next c rest = u.next c rest) :
    standings s (c :: rest) = standings u (c :: rest) := by
  rw [standings, standings, h]

/-- A character behind which nothing can stand. -/
theorem standings_none (h : s.next c rest = none) : standings s (c :: rest) = none := by
  rw [standings, h]
  rfl

end Standing

/-! ## Lines and what follows them -/

/-- What is left of a line in front of further text: it goes up to a line break, or up to the end of the
script. -/
structure LineRest (closed : Bool) (t more : Text) : Prop where
  break_mem : closed = true → ∃ l, '\n' ∉ l ∧ t = l ++ ['\n']
  last : closed = false → '\n' ∉ t ∧ more = []

namespace LineRest

variable {closed : Bool} {t more : Text} {c : Char}

/-- A line with its line break. -/
theorem of_break {l : Text} (h : '\n' ∉ l) (more : Text) : LineRest true (l ++ ['\n']) more :=
  ⟨fun _ => ⟨l, h, rfl⟩, fun h => Bool.noConfusion h⟩

/-- A last line. -/
theorem of_last {l : Text} (h : '\n' ∉ l) : LineRest false l [] :=
  ⟨fun h => Bool.noConfusion h, fun _ => ⟨h, rfl⟩⟩

/-- The rest of a line behind one of its characters. -/
theorem tail (h : LineRest closed (c :: t) more) (hc : c ≠ '\n') : LineRest closed t more := by
  refine ⟨fun hclosed => ?_, fun hclosed => ?_⟩
  · obtain ⟨l, hl, heq⟩ := h.break_mem hclosed
    cases l with
    | nil => exact absurd (List.cons.inj heq).1 hc
    | cons d l =>
        obtain ⟨rfl, rfl⟩ := List.cons.inj heq
        exact ⟨l, fun hmem => hl (List.mem_cons_of_mem _ hmem), rfl⟩
  · obtain ⟨hbreak, hmore⟩ := h.last hclosed
    exact ⟨fun hmem => hbreak (List.mem_cons_of_mem _ hmem), hmore⟩

/-- The rest of a line behind a part without a line break. -/
theorem of_append {u : Text} (h : LineRest closed (u ++ t) more) (hu : '\n' ∉ u) :
    LineRest closed t more := by
  induction u with
  | nil => exact h
  | cons d u ih =>
      have hd : d ≠ '\n' := fun heq => hu (heq ▸ List.mem_cons_self)
      exact ih (LineRest.tail h hd) fun hmem => hu (List.mem_cons_of_mem _ hmem)

/-- Nothing is left only of a last line. -/
theorem of_nil (h : LineRest closed [] more) : closed = false ∧ more = [] := by
  cases closed with
  | false => exact ⟨rfl, (h.last rfl).2⟩
  | true =>
      obtain ⟨l, -, heq⟩ := h.break_mem rfl
      simp at heq

/-- Behind a line break nothing is left. -/
theorem break_cons (h : LineRest closed ('\n' :: t) more) : closed = true ∧ t = [] := by
  cases closed with
  | false => exact absurd List.mem_cons_self (h.last rfl).1
  | true =>
      obtain ⟨l, hl, heq⟩ := h.break_mem rfl
      cases l with
      | nil => exact ⟨rfl, (List.cons.inj heq).2⟩
      | cons d l => exact absurd (List.cons.inj heq).1 fun hd => hl (hd ▸ List.mem_cons_self)

/-- What a line starts with does not depend on the text behind it. -/
theorem head?_append (h : LineRest closed t more) :
    (t ++ more).head? = some '\n' ↔ t.head? = some '\n' := by
  cases t with
  | nil => rw [h.of_nil.2, List.append_nil]
  | cons d t => rfl

/-- Whether a line goes on with two marks does not depend on the text behind it. -/
theorem isPrefixOf_append (h : LineRest closed t more) {q : Char} (hq : q ≠ '\n') :
    [q, q].isPrefixOf (t ++ more) = [q, q].isPrefixOf t := by
  match t with
  | [] => rw [h.of_nil.2, List.append_nil]
  | [d] =>
      by_cases hd : d = '\n'
      · simp [List.isPrefixOf, hd, hq]
      · rw [(h.tail hd).of_nil.2, List.append_nil]
  | _ :: _ :: _ => simp [List.isPrefixOf]

/-- Whether a line goes on with a line break does not depend on the text behind it. -/
theorem startsBreak_append (h : LineRest closed t more) : startsBreak (t ++ more) = startsBreak t := by
  match t with
  | [] => rw [h.of_nil.2, List.append_nil]
  | [d] =>
      by_cases hd : d = '\n'
      · simp [startsBreak, List.isPrefixOf, hd]
      · rw [(h.tail hd).of_nil.2, List.append_nil]
  | _ :: _ :: _ => simp [startsBreak, List.isPrefixOf]

end LineRest

/-! ## Strings -/

/-- A quote is no backslash, line break or carriage return. -/
theorem isRowQuote_ne {q : Char} (h : isRowQuote q) : q ≠ '\\' ∧ q ≠ '\n' ∧ q ≠ '\r' := by
  refine ⟨?_, ?_, ?_⟩ <;>
    · rintro rfl
      exact absurd h (by decide)

namespace Standing

variable {closed : Bool} {r rest more : Text} {q : Char} {triple : Bool}

/-- Behind the first of three marks the other two are passed over. -/
theorem standings_marks (hq : isRowQuote q) (s : Standing) (hfront : [q, q].isPrefixOf r) (more : Text) :
    standings { s with marks := 2 } (r ++ more) =
      standings { s with marks := 0, joined := false } (r.drop 2 ++ more) := by
  obtain ⟨t, rfl⟩ := List.isPrefixOf_iff_prefix.1 hfront
  obtain ⟨-, hbreak, -⟩ := isRowQuote_ne hq
  have hfirst : Standing.next { s with marks := 2 } q (q :: t ++ more) =
      some { s with marks := 1, joined := false } := by simp [Standing.next, hq]
  have hsecond : Standing.next { s with marks := 1, joined := false } q (t ++ more) =
      some { s with marks := 0, joined := false } := by simp [Standing.next, hq]
  exact (standings_cons hbreak hfirst).trans (standings_cons hbreak hsecond)

/-- In a string, a character that neither ends it nor starts an escape is passed over. -/
theorem next_string {s : Standing} {c : Char} (hmarks : s.marks = 0) (hmark : c ≠ q)
    (hescape : c ≠ '\\') (hbreak : c = '\n' → triple) :
    Standing.next { s with region := .string q triple } c rest =
      some { s with region := .string q triple, joined := false } := by
  have hnot : ¬ (c = '\n' ∧ triple = false) := fun ⟨hc, htriple⟩ => by simp [hbreak hc] at htriple
  simp [Standing.next, hmarks, hmark, hescape, hnot]

/-- In a string between three marks, one that is not followed by the other two is passed over. -/
theorem next_string_mark {s : Standing} (hq : isRowQuote q) (hmarks : s.marks = 0)
    (hnot : ¬ [q, q].isPrefixOf rest) :
    Standing.next { s with region := .string q true } q rest =
      some { s with region := .string q true, joined := false } := by
  simp [Standing.next, hmarks, (isRowQuote_ne hq).1, hnot]

/-- In a string, a backslash and the character behind it are passed over. -/
theorem standings_escape {s : Standing} {c : Char} (hmarks : s.marks = 0)
    (hc : c ≠ '\n') (hreturn : ¬ (c = '\r' ∧ rest.head? = some '\n')) :
    standings { s with region := .string q triple } ('\\' :: c :: rest) =
      standings { s with region := .string q triple, joined := false } rest := by
  have hescape : Standing.next { s with region := .string q triple } '\\' (c :: rest) =
      some { s with region := .escape q triple, joined := false } := by
    simp [Standing.next, hmarks]
  have hnext : Standing.next { s with region := .escape q triple, joined := false } c rest =
      some { s with region := .string q triple, joined := false } := by
    simpa [Standing.next, hmarks] using not_and.1 hreturn
  exact (standings_cons (by decide) hescape).trans (standings_cons hc hnext)

/-- A string that ends on a line is passed over, up to its end. -/
theorem standings_stringEnd (hq : isRowQuote q) (hend : stringEnd? q triple r = some rest)
    {s : Standing} (hmarks : s.marks = 0) (hline : LineRest closed r more) :
    LineRest closed rest more ∧ rest.length ≤ r.length ∧
      standings { s with region := .string q triple } (r ++ more) =
        standings { s with region := .code, joined := false } (rest ++ more) := by
  obtain ⟨hescape, hbreak, -⟩ := isRowQuote_ne hq
  fun_induction stringEnd? q triple r generalizing s with
  | case1 => cases hend
  | case2 => cases hend
  | case3 c r hc ih =>
      have hline' := (hline.tail (by decide)).tail hc
      have hreturn : ¬ (c = '\r' ∧ (r ++ more).head? = some '\n') := by
        rintro ⟨-, hhead⟩
        obtain ⟨r', rfl⟩ := List.head?_eq_some_iff.1 (hline'.head?_append.1 hhead)
        rw [hline'.break_cons.2] at hend
        simp [stringEnd?, Ne.symm hbreak] at hend
      obtain ⟨hrest, hlength, heq⟩ := ih hend (s := { s with joined := false }) hmarks hline'
      refine ⟨hrest, by simp only [List.length_cons]; omega, ?_⟩
      exact (standings_escape hmarks hc hreturn).trans heq
  | case4 r htriple hfront =>
      subst htriple
      obtain rfl := Option.some.inj hend
      have hline' := hline.tail hbreak
      obtain ⟨t, rfl⟩ := List.isPrefixOf_iff_prefix.1 hfront
      have hopens : Standing.next { s with region := .string q true } q ([q, q] ++ t ++ more) =
          some { s with region := .code, marks := 2, joined := false } := by
        simp [Standing.next, hmarks, hescape]
      refine ⟨(hline'.tail hbreak).tail hbreak, by simp; omega, ?_⟩
      rw [List.cons_append, standings_cons hbreak hopens]
      exact (standings_marks hq { s with region := .code, joined := false } hfront more).trans
        (by rw [← hmarks])
  | case5 r htriple hfront _ ih =>
      subst htriple
      have hline' := hline.tail hbreak
      have hnot : ¬ [q, q].isPrefixOf (r ++ more) := by rwa [hline'.isPrefixOf_append hbreak]
      obtain ⟨hrest, hlength, heq⟩ := ih hend (s := { s with joined := false }) hmarks hline'
      refine ⟨hrest, by simp only [List.length_cons]; omega, ?_⟩
      exact (standings_cons hbreak (next_string_mark hq hmarks hnot)).trans heq
  | case6 r htriple =>
      obtain rfl := Option.some.inj hend
      have hcloses : Standing.next { s with region := .string q triple } q (r ++ more) =
          some { s with region := .code, joined := false } := by
        simp [Standing.next, hmarks, hescape, htriple]
      exact ⟨hline.tail hbreak, Nat.le_succ _, standings_cons hbreak hcloses⟩
  | case7 => cases hend
  | case8 c r hr hmark hc ih =>
      have hne : c ≠ '\n' := by
        rintro rfl
        rw [hline.break_cons.2, stringEnd?] at hend
        cases hend
      obtain ⟨hrest, hlength, heq⟩ := ih hend (s := { s with joined := false }) hmarks (hline.tail hne)
      refine ⟨hrest, by simp only [List.length_cons]; omega, ?_⟩
      exact (standings_cons hne (next_string hmarks hmark hc fun h => absurd h hne)).trans heq

/-- The rest of a line leads to a standing: the one behind its line break, from where the script goes on,
or the one at the end of the script. -/
inductive Leads (more : Text) (x : List Standing × Standing) (s' : Standing) : Bool → Prop where
  | onward (y : List Standing × Standing) (hmore : standings s' more = some y)
      (hx : x = (s' :: y.1, y.2)) : Leads more x s' true
  | ends (hx : x = ([], s')) : Leads more x s' false

/-- A line break leads to the standing behind it. -/
theorem leads_break {s s' : Standing} {x : List Standing × Standing} (h : s.next '\n' more = some s')
    (hx : standings s ('\n' :: more) = some x) : Leads more x s' true := by
  rw [standings_break h] at hx
  obtain ⟨y, hmore, hx⟩ := Option.map_eq_some_iff.1 hx
  exact .onward y hmore hx.symm

/-- At the end of the script no further line starts. -/
theorem standings_nil {s : Standing} {x : List Standing × Standing} (hx : standings s [] = some x) :
    x = ([], s) := by
  rw [standings] at hx
  split at hx
  · exact (Option.some.inj hx).symm
  · cases hx

/-- The end of the script leads to the standing there. -/
theorem leads_nil {s : Standing} {x : List Standing × Standing} (hx : standings s [] = some x) :
    Leads more x s false := .ends (standings_nil hx)

/-- A string between three marks that does not end on a line goes on behind it. -/
theorem leads_string (hq : isRowQuote q) (hnone : stringEnd? q true r = none) {s : Standing}
    (hmarks : s.marks = 0) (hjoined : s.joined = false) (hline : LineRest closed r more)
    {x : List Standing × Standing}
    (hx : standings { s with region := .string q true } (r ++ more) = some x) :
    ∃ s', Leads more x s' closed ∧ (s' = { s with region := .string q true } ∨
      closed = false ∧ s' = { s with region := .escape q true }) := by
  obtain ⟨hescape, hbreak, -⟩ := isRowQuote_ne hq
  have hsame (region : Region) :
      { s with region, joined := false } = { s with region } := by rw [← hjoined]
  fun_induction stringEnd? q true r with
  | case1 =>
      obtain ⟨rfl, rfl⟩ := hline.of_nil
      exact ⟨_, leads_nil hx, .inl rfl⟩
  | case2 r =>
      obtain ⟨rfl, rfl⟩ := (hline.tail (by decide)).break_cons
      have hfirst : Standing.next { s with region := .string q true } '\\' ('\n' :: more) =
          some { s with region := .escape q true } := by simp [Standing.next, hmarks, hjoined]
      have hsecond : Standing.next { s with region := .escape q true } '\n' more =
          some { s with region := .string q true } := by simp [Standing.next, hmarks, hjoined]
      exact ⟨_, leads_break hsecond ((standings_cons (by decide) hfirst).symm.trans hx), .inl rfl⟩
  | case3 c r hc ih =>
      have hline' := (hline.tail (by decide)).tail hc
      refine ih hnone hline' ?_
      by_cases hreturn : c = '\r' ∧ (r ++ more).head? = some '\n'
      · -- the escape takes up the line break as well, which a string would pass over, too
        obtain ⟨rfl, hhead⟩ := hreturn
        obtain ⟨t, rfl⟩ := List.head?_eq_some_iff.1 (hline'.head?_append.1 hhead)
        have hfirst : Standing.next { s with region := .string q true } '\\' ('\r' :: '\n' :: (t ++ more)) =
            some { s with region := .escape q true } := by simp [Standing.next, hmarks, hjoined]
        have hsecond : Standing.next { s with region := .escape q true } '\r' ('\n' :: (t ++ more)) =
            some { s with region := .escape q true } := by simp [Standing.next, hmarks, hjoined]
        have hthird : Standing.next { s with region := .escape q true } '\n' (t ++ more) =
            Standing.next { s with region := .string q true } '\n' (t ++ more) := by
          simp [Standing.next, hmarks, Ne.symm hbreak]
        exact (standings_congr hthird).symm.trans (((standings_cons (by decide) hfirst).trans
          (standings_cons (by decide) hsecond)).symm.trans hx)
      · rw [List.cons_append, List.cons_append, standings_escape hmarks hc hreturn, hsame] at hx
        exact hx
  | case4 => cases hnone
  | case5 r htriple hfront hr ih =>
      have hline' := hline.tail hbreak
      have hnot : ¬ [q, q].isPrefixOf (r ++ more) := by rwa [hline'.isPrefixOf_append hbreak]
      rw [List.cons_append, standings_cons hbreak (next_string_mark hq hmarks hnot), hsame] at hx
      exact ih hnone hline' hx
  | case6 => cases hnone
  | case7 r hr =>
      have hlast : Standing.next { s with region := .string q true } '\\' (r ++ more) =
          some { s with region := .escape q true } := by simp [Standing.next, hmarks, hjoined]
      cases r with
      | cons c r => exact absurd rfl (hr c r rfl)
      | nil =>
          obtain ⟨rfl, rfl⟩ := (hline.tail (by decide)).of_nil
          exact ⟨_, leads_nil ((standings_cons (by decide) hlast).symm.trans hx), .inr ⟨rfl, rfl⟩⟩
  | case8 c r hr hmark hc ih =>
      have hnext : Standing.next { s with region := .string q true } c (r ++ more) =
          some { s with region := .string q true, joined := false } :=
        next_string hmarks hmark hc fun _ => rfl
      rw [hsame] at hnext
      by_cases hne : c = '\n'
      · subst hne
        obtain ⟨rfl, rfl⟩ := hline.break_cons
        exact ⟨_, leads_break hnext hx, .inl rfl⟩
      · rw [List.cons_append, standings_cons hne hnext] at hx
        exact ih hnone (hline.tail hne) hx

/-- A string between single marks ends on a line, goes on behind it by an escaped line break, or cannot
go on. -/
inductive SingleString (closed : Bool) (q : Char) (r more : Text) (s : Standing) : LineString → Prop where
  | ends {rest : Text} (hend : stringEnd? q false r = some rest) :
      SingleString closed q r more s (.ends rest)
  | continues (hnone : stringEnd? q false r = none)
      (hending : Text.endsWith r ['\\', '\n'] || Text.endsWith r ['\\', '\r', '\n'])
      (hleads : ∀ x, standings { s with region := .string q false } (r ++ more) = some x →
        Leads more x { s with region := .string q false } closed) :
      SingleString closed q r more s .continues
  | broken (hnone : stringEnd? q false r = none)
      (hstops : standings { s with region := .string q false } (r ++ more) = none) :
      SingleString closed q r more s .broken

/-- The end of a string between single marks is looked for behind a character that is no backslash. -/
theorem stringEnd?_single {c : Char} (hc : c ≠ '\\') (r : Text) :
    stringEnd? q false (c :: r) = if c = q then some r else stringEnd? q false r := by
  rw [stringEnd?]
  · simp [hc]
  · exact fun _ _ h => absurd h hc

/-- What holds of a string behind some of its characters holds of the string. -/
theorem SingleString.cons {s : Standing} {found : LineString} {u : Text}
    (h : SingleString closed q r more s found) (hend : stringEnd? q false (u ++ r) = stringEnd? q false r)
    (hstandings : standings { s with region := .string q false } (u ++ r ++ more) =
      standings { s with region := .string q false } (r ++ more)) :
    SingleString closed q (u ++ r) more s found := by
  cases h with
  | ends h => exact .ends (hend.trans h)
  | continues hnone hending hleads =>
      refine .continues (hend.trans hnone) ?_ fun x hx => hleads x (hstandings ▸ hx)
      simp only [Text.endsWith, Bool.or_eq_true, List.isSuffixOf_iff_suffix] at hending ⊢
      exact hending.imp (·.trans (List.suffix_append _ _)) (·.trans (List.suffix_append _ _))
  | broken hnone hstops => exact .broken (hend.trans hnone) (hstandings.trans hstops)

/-- How a string between single marks goes on, by its line and by its characters. -/
theorem singleString_lineString (hq : isRowQuote q) {s : Standing} (hmarks : s.marks = 0)
    (hjoined : s.joined = false) (hline : LineRest closed r more) :
    SingleString closed q r more s (lineString q r) := by
  obtain ⟨hescape, hbreak, hreturn⟩ := isRowQuote_ne hq
  have hsame (region : Region) :
      { s with region, joined := false } = { s with region } := by rw [← hjoined]
  fun_induction lineString q r with
  | case1 =>
      obtain ⟨rfl, rfl⟩ := hline.of_nil
      exact .broken rfl rfl
  | case2 =>
      obtain ⟨rfl, -⟩ := (hline.tail (by decide)).break_cons
      have hfirst : Standing.next { s with region := .string q false } '\\' ('\n' :: more) =
          some { s with region := .escape q false } := by simp [Standing.next, hmarks, hjoined]
      have hsecond : Standing.next { s with region := .escape q false } '\n' more =
          some { s with region := .string q false } := by simp [Standing.next, hmarks, hjoined]
      refine .continues (by simp [stringEnd?]) (by decide) fun x hx => ?_
      exact leads_break hsecond ((standings_cons (by decide) hfirst).symm.trans hx)
  | case3 =>
      obtain ⟨rfl, -⟩ := ((hline.tail (by decide)).tail (by decide)).break_cons
      have hfirst : Standing.next { s with region := .string q false } '\\' ('\r' :: '\n' :: more) =
          some { s with region := .escape q false } := by simp [Standing.next, hmarks, hjoined]
      have hsecond : Standing.next { s with region := .escape q false } '\r' ('\n' :: more) =
          some { s with region := .escape q false } := by simp [Standing.next, hmarks, hjoined]
      have hthird : Standing.next { s with region := .escape q false } '\n' more =
          some { s with region := .string q false } := by simp [Standing.next, hmarks, hjoined]
      refine .continues (by simp [stringEnd?, Ne.symm hbreak]) (by decide) fun x hx => ?_
      exact leads_break hthird (((standings_cons (by decide) hfirst).trans
        (standings_cons (by decide) hsecond)).symm.trans hx)
  | case4 r hr =>
      exact absurd ((hline.tail (by decide)).break_cons.2) (hr rfl)
  | case5 c r _ hr hc ih =>
      have hline' := (hline.tail (by decide)).tail hc
      have hnot : ¬ (c = '\r' ∧ (r ++ more).head? = some '\n') := by
        rintro ⟨rfl, hhead⟩
        obtain ⟨t, rfl⟩ := List.head?_eq_some_iff.1 (hline'.head?_append.1 hhead)
        exact hr rfl (by rw [hline'.break_cons.2])
      have hend : stringEnd? q false (['\\', c] ++ r) = stringEnd? q false r := by
        simp [stringEnd?, hc]
      exact (ih hline').cons hend ((standings_escape hmarks hc hnot).trans (by rw [hsame]))
  | case6 r => exact .ends ((stringEnd?_single hescape r).trans (if_pos rfl))
  | case7 c r _ _ hr hmark hc =>
      rw [Bool.or_eq_true, decide_eq_true_eq, decide_eq_true_eq] at hc
      rcases hc with rfl | rfl
      · have hstops : Standing.next { s with region := .string q false } '\n' (r ++ more) = none := by
          simp [Standing.next, hmarks, hmark]
        refine .broken ?_ (standings_none hstops)
        rw [hline.break_cons.2, stringEnd?_single (by decide), if_neg hmark]
        rfl
      · have hlast : Standing.next { s with region := .string q false } '\\' (r ++ more) =
            some { s with region := .escape q false } := by simp [Standing.next, hmarks, hjoined]
        cases r with
        | cons c r => exact absurd rfl (hr c r rfl)
        | nil =>
            obtain ⟨rfl, rfl⟩ := (hline.tail (by decide)).of_nil
            exact .broken (by simp [stringEnd?, hmark]) (standings_cons (by decide) hlast)
  | case8 c r _ _ _ hmark hc ih =>
      rw [Bool.or_eq_true, decide_eq_true_eq, decide_eq_true_eq, not_or] at hc
      have hend : stringEnd? q false ([c] ++ r) = stringEnd? q false r :=
        (stringEnd?_single hc.2 r).trans (if_neg hmark)
      have hnext : Standing.next { s with region := .string q false } c (r ++ more) =
          some { s with region := .string q false, joined := false } :=
        next_string hmarks hmark hc.2 fun h => absurd h hc.1
      exact (ih (hline.tail hc.1)).cons hend ((standings_cons hc.1 hnext).trans (by rw [hsame]))

/-! ## Code and remarks -/

/-- In code the region decides what a character does. -/
theorem next_code {u : Standing} (hmarks : u.marks = 0) (hcode : u.region = .code)
    (hjoined : u.joined = false) (c : Char) (rest : Text) : u.next c rest = u.nextCode c rest := by
  obtain ⟨region, marks, depth, joined, begun⟩ := u
  dsimp only at hmarks hcode hjoined
  subst hmarks hcode hjoined
  rfl

/-- Gaps between the parts of a line are passed over. -/
theorem standings_gaps {u : Standing} (hmarks : u.marks = 0) (hcode : u.region = .code)
    (hjoined : u.joined = false) (t more : Text) :
    standings u (t ++ more) = standings u (t.dropWhile isRowGap ++ more) := by
  induction t with
  | nil => rfl
  | cons c t ih =>
      by_cases hc : isRowGap c
      · have hbreak : c ≠ '\n' := by
          rintro rfl
          exact absurd hc (by decide)
        have hreturn : c ≠ '\r' := by
          rintro rfl
          exact absurd hc (by decide)
        have hnext : u.next c (t ++ more) = some u := by
          simp [next_code hmarks hcode hjoined, nextCode, hbreak, hreturn, hc]
        rw [List.dropWhile_cons_of_pos hc, List.cons_append, standings_cons hbreak hnext, ih]
      · rw [List.dropWhile_cons_of_neg hc]

/-- The characters of a remark are passed over. -/
theorem standings_remark {u : Standing} (hmarks : u.marks = 0) (hjoined : u.joined = false)
    (t more : Text) :
    standings { u with region := .remark } (t ++ more) =
      standings { u with region := .remark }
        (t.dropWhile (fun c => c ≠ '\n' && c ≠ '\r') ++ more) := by
  induction t with
  | nil => rfl
  | cons c t ih =>
      by_cases hc : c = '\n' ∨ c = '\r'
      · rw [List.dropWhile_cons_of_neg (by simpa [or_iff_not_imp_left] using hc)]
      · rw [not_or] at hc
        have hnext : Standing.next { u with region := .remark } c (t ++ more) =
            some { u with region := .remark } := by simp [Standing.next, hmarks, hc, hjoined]
        rw [List.dropWhile_cons_of_pos (by simp [hc]), List.cons_append, standings_cons hc.1 hnext, ih]

/-- At a line break a remark ends, so that it does not matter from there on. -/
theorem standings_remark_break {u : Standing} (hmarks : u.marks = 0) (hcode : u.region = .code)
    (hjoined : u.joined = false) {c : Char} (hc : c = '\n' ∨ c = '\r') (rest : Text) :
    standings { u with region := .remark } (c :: rest) = standings u (c :: rest) := by
  have hbreak (rest : Text) :
      standings { u with region := .remark } ('\n' :: rest) = standings u ('\n' :: rest) := by
    refine standings_congr ?_
    rw [next_code hmarks hcode hjoined]
    simp [nextCode, Standing.next, hmarks, endLine, hjoined]
  rcases hc with rfl | rfl
  · exact hbreak rest
  · by_cases hhead : rest.head? = some '\n'
    · obtain ⟨t, rfl⟩ := List.head?_eq_some_iff.1 hhead
      have hremark : Standing.next { u with region := .remark } '\r' ('\n' :: t) =
          some { u with region := .remark } := by simp [Standing.next, hmarks, hjoined]
      have hown : u.next '\r' ('\n' :: t) = some u := by
        simp [next_code hmarks hcode hjoined, nextCode]
      rw [standings_cons (by decide) hremark, standings_cons (by decide) hown, hbreak]
    · refine standings_congr ?_
      rw [next_code hmarks hcode hjoined]
      simp [nextCode, Standing.next, hmarks, hhead]

end Standing

/-! ## Logical lines -/

/-- A line continues one of some logical lines, which are given by their first and last lines. -/
def ContinuesOne (spans : List (Nat × Nat)) (i : Nat) : Prop :=
  ∃ span ∈ spans, span.1 ≤ i ∧ i < span.2

/-- A line continues the logical line that has been started, up to the line that is read. -/
def RowState.Pending (s : RowState) (i : Nat) : Prop :=
  ∃ f, s.start? = some f ∧ f ≤ i ∧ i < s.row

/-- The lines of a script that can be read to its end continue its logical lines. -/
theorem mem_continuationLines {code : Text} {s : RowState}
    (h : readRows RowState.start [] (rowsOf code) = some s) (i : Nat) :
    i ∈ continuationLines code ↔ ContinuesOne s.spans i := by
  rw [continuationLines, h]
  simp only [List.mem_flatMap, List.mem_reverse, List.mem_range'_1, ContinuesOne]
  refine exists_congr fun span => and_congr_right fun _ => ?_
  omega

/-- Reading leaves the logical line as it is, or starts it on the line that is read. -/
structure Keeps (s s₁ : RowState) : Prop where
  row : s₁.row = s.row
  spans : s₁.spans = s.spans
  start : s₁.start? = s.start? ∨ s.start? = none ∧ s₁.start? = some s.row

/-- Reading ends the logical line, if there is one. -/
structure Closes (s s₁ : RowState) : Prop where
  row : s₁.row = s.row
  start : s₁.start? = none
  spans : ∀ i, ContinuesOne s₁.spans i ↔ ContinuesOne s.spans i ∨ s.Pending i

section

variable {s s' s₁ : RowState}

/-- Nothing is read. -/
theorem Keeps.refl (s : RowState) : Keeps s s := ⟨rfl, rfl, .inl rfl⟩

/-- Part after part is read. -/
theorem Keeps.trans (h : Keeps s s') (h' : Keeps s' s₁) : Keeps s s₁ := by
  refine ⟨h'.row.trans h.row, h'.spans.trans h.spans, ?_⟩
  rcases h'.start with hsame | ⟨hnone, hsome⟩
  · exact h.start.imp (hsame.trans ·) fun h => ⟨h.1, hsame.trans h.2⟩
  · rcases h.start with hstart | ⟨-, hstart⟩
    · exact .inr ⟨hstart ▸ hnone, h.row ▸ hsome⟩
    · rw [hnone] at hstart
      cases hstart

/-- The line that is read can be marked. -/
theorem keeps_mark (s : RowState) : Keeps s (s.mark s.row) := by
  rw [RowState.mark_eq]
  refine ⟨rfl, rfl, ?_⟩
  cases hstart : s.start? with
  | none => exact .inr ⟨rfl, rfl⟩
  | some f => exact .inl rfl

/-- A logical line that starts on the line that is read continues on no line before. -/
theorem Keeps.pending (h : Keeps s s') (i : Nat) : s'.Pending i ↔ s.Pending i := by
  rw [RowState.Pending, RowState.Pending, h.row]
  rcases h.start with hsame | ⟨hnone, hsome⟩
  · rw [hsame]
  · rw [hsome, hnone]
    constructor
    · rintro ⟨f, hf, hle, hlt⟩
      obtain rfl := Option.some.inj hf
      omega
    · rintro ⟨f, hf, -⟩
      cases hf

/-- Part after part is read, and the logical line ends. -/
theorem Keeps.closes (h : Keeps s s') (h' : Closes s' s₁) : Closes s s₁ :=
  ⟨h'.row.trans h.row, h'.start, fun i => by rw [h'.spans, h.spans, h.pending]⟩

/-- The logical line ends on the line that is read. -/
theorem closes_close (s : RowState) : Closes s (s.close s.row) := by
  refine ⟨rfl, rfl, fun i => ?_⟩
  simp only [RowState.close, ContinuesOne, List.mem_cons, or_and_right, exists_or, exists_eq_left]
  rw [or_comm]
  refine or_congr Iff.rfl ?_
  rw [RowState.Pending]
  cases s.start? with
  | none =>
      simp only [Option.getD_none]
      constructor
      · omega
      · rintro ⟨f, hf, -⟩
        cases hf
  | some f => simp

end

/-! ## Reading a line -/

/-- What is known while lines are read agrees with where the characters stand. -/
structure Agrees (s : RowState) (u : Standing) : Prop where
  marks : u.marks = 0
  depth : s.depth = u.depth
  joined : s.continued = u.joined
  begun : s.start?.isSome = u.begun
  string : match u.region with
    | .code | .remark => s.open? = none ∧ s.needsBackslash = false
    | .string mark triple | .escape mark triple =>
      isRowQuote mark ∧ u.joined = false ∧ s.start? ≠ none ∧
        ∃ row, s.open? = some ⟨mark, triple, row⟩ ∧ s.needsBackslash = !triple
    | .join => False

/-- Behind a line break there is code or a string. -/
def Standing.StartsLine (u : Standing) : Prop :=
  u.region = .code ∨ ∃ mark triple, u.region = .string mark triple

/-- Reading the rest of a line does what its characters do. Behind a line break the logical line goes on
when the next line is inside of something, and else it ends. -/
def Reads (closed : Bool) (more : Text) (x : List Standing × Standing) (s s₁ : RowState) : Prop :=
  ∃ u, Standing.Leads more x u closed ∧ Agrees s₁ u ∧
    (closed = false ∧ Keeps s s₁ ∨
      closed = true ∧ u.StartsLine ∧
        (u.inside = true ∧ Keeps s s₁ ∨ u.inside = false ∧ Closes s s₁))

section

variable {closed : Bool} {t more : Text} {x : List Standing × Standing} {s s' s₁ : RowState}
  {u : Standing}

/-- Part after part is read. -/
theorem Keeps.reads (h : Keeps s s') (h' : Reads closed more x s' s₁) : Reads closed more x s s₁ := by
  obtain ⟨u, hleads, hagrees, hend⟩ := h'
  refine ⟨u, hleads, hagrees, hend.imp (fun h' => ⟨h'.1, h.trans h'.2⟩) fun h' => ?_⟩
  exact ⟨h'.1, h'.2.1, h'.2.2.imp (fun h' => ⟨h'.1, h.trans h'.2⟩) fun h' => ⟨h'.1, h.closes h'.2⟩⟩

/-- A line goes on behind its line break inside of something. -/
theorem Reads.of_inside (hleads : Standing.Leads more x u closed) (hagrees : Agrees s₁ u)
    (hstarts : closed = true → u.StartsLine) (hinside : closed = true → u.inside = true)
    (hkeeps : Keeps s s₁) : Reads closed more x s s₁ := by
  refine ⟨u, hleads, hagrees, ?_⟩
  cases closed with
  | false => exact .inl ⟨rfl, hkeeps⟩
  | true => exact .inr ⟨rfl, hstarts rfl, .inl ⟨hinside rfl, hkeeps⟩⟩

/-- What is known in the middle of a line, in code. -/
structure InCode (s : RowState) (u : Standing) : Prop extends Agrees s u where
  code : u.region = .code
  fresh : u.joined = false

/-- In code no string is open. -/
theorem InCode.open? (h : InCode s u) : s.open? = none ∧ s.needsBackslash = false := by
  have hstring := h.string
  rw [h.code] at hstring
  exact hstring

/-- Behind a character of a logical line the line is marked. -/
theorem InCode.mark (h : InCode s u) : InCode (s.mark s.row) { u with begun := true } := by
  rw [RowState.mark_eq]
  have hstring := h.open?
  refine ⟨⟨h.marks, h.depth, h.joined, rfl, ?_⟩, h.code, h.fresh⟩
  dsimp only
  rw [h.code]
  exact hstring

/-- A line break ends the logical line, outside brackets. -/
theorem reads_break (h : InCode s u) (hx : standings u ('\n' :: more) = some x) :
    Reads true more x s (if 0 < s.depth then s else s.close s.row) := by
  have hnext : u.next '\n' more = some u.endLine := by
    rw [Standing.next_code h.marks h.code h.fresh]
    rfl
  have hdepth := h.depth
  have hstring := h.open?
  have hbegun := h.begun
  have hjoined := h.joined
  refine ⟨u.endLine, Standing.leads_break hnext hx, ?_, .inr ⟨rfl, .inl rfl, ?_⟩⟩
  · split
    · next hpos =>
      refine ⟨h.marks, hdepth, hjoined, ?_, hstring⟩
      have hpos' : 0 < u.depth := by omega
      simp [Standing.endLine, hpos', hbegun]
    · next hpos =>
      refine ⟨h.marks, hdepth, hjoined, ?_, hstring⟩
      have hpos' : ¬ 0 < u.depth := by omega
      simp [Standing.endLine, hpos', RowState.close]
  · split
    · next hpos =>
      have hpos' : 0 < u.depth := by omega
      exact .inl ⟨by simp [Standing.inside, Standing.endLine, hpos'], Keeps.refl s⟩
    · next hpos =>
      have hpos' : ¬ 0 < u.depth := by omega
      exact .inr ⟨by simp [Standing.inside, Standing.endLine, hpos', h.fresh], closes_close s⟩

/-- A carriage return in front of a line break is passed over. -/
theorem standings_return (h : InCode s u) (rest : Text) :
    standings u ('\r' :: '\n' :: rest) = standings u ('\n' :: rest) := by
  refine Standing.standings_cons (by decide) ?_
  rw [Standing.next_code h.marks h.code h.fresh]
  rfl

/-- A backslash in front of a line break joins the next line. -/
theorem reads_join (h : InCode s u) {r : Text} (hr : r = '\n' :: more ∨ r = '\r' :: '\n' :: more)
    (hx : standings u ('\\' :: r) = some x) :
    Reads true more x s { s with continued := true } := by
  have hfirst : u.next '\\' r = some { u with region := .join } := by
    rw [Standing.next_code h.marks h.code h.fresh]
    rcases hr with rfl | rfl <;> simp [Standing.nextCode, isRowGap, startsBreak]
  have hbreak : Standing.next { u with region := .join } '\n' more = some { u with joined := true } := by
    simp [Standing.next, h.marks, h.code]
  have hreturn : Standing.next { u with region := .join } '\r' ('\n' :: more) =
      some { u with region := .join } := by simp [Standing.next, h.marks, h.fresh]
  have hjoin : standings { u with region := .join } ('\n' :: more) = some x := by
    rw [Standing.standings_cons (by decide) hfirst] at hx
    rcases hr with rfl | rfl
    · exact hx
    · rwa [Standing.standings_cons (by decide) hreturn] at hx
  have hagrees : Agrees { s with continued := true } { u with joined := true } := by
    refine ⟨h.marks, h.depth, rfl, h.begun, ?_⟩
    dsimp only
    rw [h.code]
    exact h.open?
  refine .of_inside (Standing.leads_break hbreak hjoin) hagrees (fun _ => .inl h.code) (fun _ => ?_)
    ⟨rfl, rfl, .inl rfl⟩
  simp [Standing.inside]

/-- A quote in code starts a string. -/
theorem next_quote (h : InCode s u) {c : Char} (hc : isRowQuote c) (rest : Text) :
    u.next c rest = some (if [c, c].isPrefixOf rest then
      { u with region := .string c true, marks := 2, begun := true }
      else { u with region := .string c false, begun := true }) := by
  obtain ⟨hescape, hbreak, hreturn⟩ := isRowQuote_ne hc
  have hgap : isRowGap c = false := by
    rw [isRowQuote, Bool.or_eq_true, beq_iff_eq, beq_iff_eq] at hc
    rcases hc with rfl | rfl <;> decide
  have hremark : c ≠ '#' := by
    rintro rfl
    exact absurd hc (by decide)
  rw [Standing.next_code h.marks h.code h.fresh, Standing.nextCode, if_neg hbreak, if_neg hreturn,
    hgap, if_neg Bool.false_ne_true, if_neg hremark, if_neg hescape, if_pos hc]
  split <;> rfl

/-- A string is open behind the line that is read. -/
theorem agrees_openString (h : InCode s u) {q : Char} (hq : isRowQuote q) (triple : Bool) :
    Agrees { s.mark s.row with open? := some ⟨q, triple, s.row⟩, needsBackslash := !triple }
      { u with region := .string q triple, begun := true } := by
  have hmark := h.mark
  exact ⟨hmark.marks, hmark.depth, hmark.joined, hmark.begun, hq, h.fresh, RowState.mark_start? _ _,
    s.row, rfl, rfl⟩

/-- The line that is read can be marked, and a string be open behind it. -/
theorem keeps_openString (s : RowState) (o : OpenString) (needsBackslash : Bool) :
    Keeps s { s.mark s.row with open? := some o, needsBackslash } :=
  ⟨(keeps_mark s).row, (keeps_mark s).spans, (keeps_mark s).start⟩

/-- A string between three marks that does not end on its line is open behind it. -/
theorem reads_triple (h : InCode s u) {q : Char} (hq : isRowQuote q) (hline : LineRest closed t more)
    (hnone : stringEnd? q true t = none)
    (hx : standings { u with region := .string q true, begun := true } (t ++ more) = some x) :
    Reads closed more x s { s.mark s.row with open? := some ⟨q, true, s.row⟩ } := by
  have hagrees := agrees_openString h hq true
  have hneeds : (s.mark s.row).needsBackslash = !true := by
    rw [RowState.mark_eq]
    exact h.open?.2
  obtain ⟨u', hleads, hu'⟩ := Standing.leads_string (s := { u with begun := true }) hq hnone h.marks
    h.fresh hline hx
  have hkeeps := keeps_openString s ⟨q, true, s.row⟩ (s.mark s.row).needsBackslash
  rw [← hneeds] at hagrees
  rcases hu' with rfl | ⟨hclosed, rfl⟩
  · exact .of_inside hleads hagrees (fun _ => .inr ⟨q, true, rfl⟩) (fun _ => rfl) hkeeps
  · refine .of_inside hleads ?_ (fun h => by simp [hclosed] at h) (fun h => by simp [hclosed] at h) hkeeps
    exact ⟨hagrees.marks, hagrees.depth, hagrees.joined, hagrees.begun, hagrees.string⟩

/-- Another character of code is part of the logical line. It can be a bracket. -/
theorem exists_next_other (h : InCode s u) {c : Char} {r : Text} (hline : LineRest closed (c :: r) more)
    (hjoin : ∀ r', c = '\\' → r = '\n' :: r' → False)
    (hjoin' : ∀ r', c = '\\' → r = '\r' :: '\n' :: r' → False) (hbreak : c ≠ '\n')
    (hreturn : ∀ r', c = '\r' → r = '\n' :: r' → False) (hremark : c ≠ '#')
    (hgap : isRowGap c = false) (hquote : isRowQuote c = false)
    (hx : standings u (c :: (r ++ more)) = some x) :
    ∃ u', u.next c (r ++ more) = some u' ∧
      InCode { s.mark s.row with
        depth :=
          if c = '(' || c = '[' || c = '{' then s.depth + 1
          else if c = ')' || c = ']' || c = '}' then s.depth - 1
          else s.depth } u' := by
  have hrest := hline.tail hbreak
  have hmark := h.mark
  have hdepth : s.depth = u.depth := h.depth
  cases hnext : u.next c (r ++ more) with
  | none =>
      rw [Standing.standings_none hnext] at hx
      cases hx
  | some u' =>
      refine ⟨u', rfl, ?_⟩
      rw [Standing.next_code h.marks h.code h.fresh, Standing.nextCode, if_neg hbreak, hgap,
        if_neg Bool.false_ne_true, if_neg hremark, hquote, if_neg Bool.false_ne_true] at hnext
      split at hnext
      · next hc =>
        -- a carriage return is none without a line break behind it
        split at hnext
        · next hhead =>
          obtain ⟨r', rfl⟩ := List.head?_eq_some_iff.1 (hrest.head?_append.1 hhead)
          exact absurd rfl (hreturn r' hc)
        · cases hnext
      split at hnext
      · next hc =>
        -- nor is a backslash
        split at hnext
        · next hstarts =>
          rw [hrest.startsBreak_append, startsBreak, Bool.or_eq_true, List.isPrefixOf_iff_prefix,
            List.isPrefixOf_iff_prefix] at hstarts
          rcases hstarts with ⟨r', rfl⟩ | ⟨r', rfl⟩
          · exact absurd rfl (hjoin r' hc)
          · exact absurd rfl (hjoin' r' hc)
        · cases hnext
      split at hnext
      · next hopens =>
        obtain rfl := Option.some.inj hnext
        rw [if_pos hopens]
        exact ⟨⟨hmark.marks, by simp [hdepth], hmark.joined, hmark.begun, hmark.string⟩, hmark.code,
          hmark.fresh⟩
      · next hopens =>
        split at hnext
        · next hcloses =>
          split at hnext
          · cases hnext
          · next hpos =>
            obtain rfl := Option.some.inj hnext
            rw [if_neg hopens, if_pos hcloses]
            exact ⟨⟨hmark.marks, by simp only [hdepth]; omega, hmark.joined, hmark.begun, hmark.string⟩,
              hmark.code, hmark.fresh⟩
        · next hcloses =>
          obtain rfl := Option.some.inj hnext
          rw [if_neg hopens, if_neg hcloses]
          exact ⟨⟨hmark.marks, hdepth, hmark.joined, hmark.begun, hmark.string⟩, hmark.code,
            hmark.fresh⟩

/-- Reading nothing changes nothing. -/
theorem scanRow_nil_eq (fuel : Nat) (s : RowState) : scanRow fuel s [] = s := by
  cases fuel <;> rfl

/-- Three marks start a string. -/
theorem standings_triple (h : InCode s u) {q : Char} (hq : isRowQuote q)
    (hline : LineRest closed (q :: t) more) (hfront : [q, q].isPrefixOf t) :
    LineRest closed (t.drop 2) more ∧ standings u (q :: (t ++ more)) =
      standings { u with region := .string q true, begun := true } (t.drop 2 ++ more) := by
  obtain ⟨-, hbreak, -⟩ := isRowQuote_ne hq
  have htail := hline.tail hbreak
  have hnext := next_quote h hq (t ++ more)
  rw [htail.isPrefixOf_append hbreak, if_pos hfront] at hnext
  have hmarks := Standing.standings_marks hq { u with region := .string q true, begun := true } hfront
    more
  refine ⟨?_, (Standing.standings_cons hbreak hnext).trans (hmarks.trans ?_)⟩
  · obtain ⟨t', rfl⟩ := List.isPrefixOf_iff_prefix.1 hfront
    exact (htail.tail hbreak).tail hbreak
  · rw [← h.marks, ← h.fresh]

/-- One mark starts a string. -/
theorem standings_single (h : InCode s u) {q : Char} (hq : isRowQuote q)
    (hline : LineRest closed (q :: t) more) (hnot : ¬ [q, q].isPrefixOf t) :
    standings u (q :: (t ++ more)) =
      standings { u with region := .string q false, begun := true } (t ++ more) := by
  obtain ⟨-, hbreak, -⟩ := isRowQuote_ne hq
  have hnext := next_quote h hq (t ++ more)
  rw [(hline.tail hbreak).isPrefixOf_append hbreak, if_neg hnot] at hnext
  exact Standing.standings_cons hbreak hnext

/-- Behind the end of a string there is code. -/
theorem InCode.mark_eq (h : InCode s u) :
    { u with region := .code, joined := false, begun := true } = { u with begun := true } := by
  rw [← h.code, ← h.fresh]

/-- The gaps in front of the rest of a line are passed over. -/
theorem InCode.dropGaps (h : InCode s u) (hline : LineRest closed t more)
    (hx : standings u (t ++ more) = some x) {d : Text} (hdrop : t.dropWhile isRowGap = d) :
    LineRest closed d more ∧ standings u (d ++ more) = some x ∧ d.length ≤ t.length ∧
      ∀ c ∈ d.head?, isRowGap c = false := by
  have hsplit := List.takeWhile_append_dropWhile (p := isRowGap) (l := t)
  rw [hdrop] at hsplit
  refine ⟨LineRest.of_append (hsplit.symm ▸ hline) fun hmem => ?_, ?_, ?_, fun c hc => ?_⟩
  · exact absurd (List.mem_takeWhile_imp hmem) (by decide)
  · rwa [Standing.standings_gaps h.marks h.code h.fresh, hdrop] at hx
  · exact hdrop ▸ (List.dropWhile_suffix _).length_le
  · have hnot := List.head?_dropWhile_not isRowGap t
    rw [hdrop, Option.mem_def.1 hc] at hnot
    simpa using hnot

/-- The characters of a remark are passed over, up to the line break behind it. -/
theorem standings_dropRemark (h : InCode s u) {r d : Text} (hline : LineRest closed ('#' :: r) more)
    (hdrop : r.dropWhile (fun c => c ≠ '\n' && c ≠ '\r') = d)
    (hx : standings u ('#' :: (r ++ more)) = some x) :
    LineRest closed d more ∧ standings { u with region := .remark } (d ++ more) = some x := by
  have hremark : u.next '#' (r ++ more) = some { u with region := .remark } := by
    rw [Standing.next_code h.marks h.code h.fresh]
    rfl
  have hsplit := List.takeWhile_append_dropWhile (p := fun c => c ≠ '\n' && c ≠ '\r') (l := r)
  rw [hdrop] at hsplit
  refine ⟨LineRest.of_append (hsplit.symm ▸ hline.tail (by decide)) fun hmem => ?_, ?_⟩
  · have hnot := List.mem_takeWhile_imp hmem
    simp at hnot
  · rwa [Standing.standings_cons (by decide) hremark, Standing.standings_remark h.marks h.fresh,
      hdrop] at hx

/-- Reading the rest of a line in code does what its characters do. -/
theorem reads_scanRow {fuel : Nat} (h : InCode s u) (hline : LineRest closed t more)
    (hfuel : t.length < fuel) (hx : standings u (t ++ more) = some x) :
    Reads closed more x s (scanRow fuel s t) := by
  fun_induction scanRow fuel s t generalizing u with
  | case1 => exact absurd hfuel (Nat.not_lt_zero _)
  | case2 fuel s t hdrop =>
      obtain ⟨hline, hx, -, -⟩ := h.dropGaps hline hx hdrop
      obtain ⟨rfl, rfl⟩ := hline.of_nil
      exact ⟨u, Standing.leads_nil hx, h.toAgrees, .inl ⟨rfl, Keeps.refl s⟩⟩
  | case3 fuel s t r hdrop =>
      obtain ⟨hline, hx, -, -⟩ := h.dropGaps hline hx hdrop
      obtain ⟨rfl, rfl⟩ := (hline.tail (by decide)).break_cons
      exact reads_join h (.inl rfl) hx
  | case4 fuel s t r hdrop =>
      obtain ⟨hline, hx, -, -⟩ := h.dropGaps hline hx hdrop
      obtain ⟨rfl, rfl⟩ := ((hline.tail (by decide)).tail (by decide)).break_cons
      exact reads_join h (.inr rfl) hx
  | case5 fuel s t r hdrop hpos =>
      obtain ⟨hline, hx, -, -⟩ := h.dropGaps hline hx hdrop
      obtain ⟨rfl, rfl⟩ := hline.break_cons
      have hbreak := reads_break h hx
      rwa [if_pos hpos] at hbreak
  | case6 fuel s t r hdrop hpos =>
      obtain ⟨hline, hx, -, -⟩ := h.dropGaps hline hx hdrop
      obtain ⟨rfl, rfl⟩ := hline.break_cons
      have hbreak := reads_break h hx
      rwa [if_neg hpos] at hbreak
  | case7 fuel s t r hdrop hpos =>
      obtain ⟨hline, hx, -, -⟩ := h.dropGaps hline hx hdrop
      obtain ⟨rfl, rfl⟩ := (hline.tail (by decide)).break_cons
      have hbreak := reads_break h ((standings_return h _).symm.trans hx)
      rwa [if_pos hpos] at hbreak
  | case8 fuel s t r hdrop hpos =>
      obtain ⟨hline, hx, -, -⟩ := h.dropGaps hline hx hdrop
      obtain ⟨rfl, rfl⟩ := (hline.tail (by decide)).break_cons
      have hbreak := reads_break h ((standings_return h _).symm.trans hx)
      rwa [if_neg hpos] at hbreak
  | case9 fuel s t r hdrop ih =>
      obtain ⟨hline, hx, hlength, -⟩ := h.dropGaps hline hx hdrop
      obtain ⟨d, hbehind⟩ : ∃ d, r.dropWhile (fun c => c ≠ '\n' && c ≠ '\r') = d := ⟨_, rfl⟩
      obtain ⟨hrest, hx⟩ := standings_dropRemark h hline hbehind hx
      have hle : d.length ≤ r.length := hbehind ▸ (List.dropWhile_suffix _).length_le
      rw [hbehind] at ih ⊢
      cases d with
      | nil =>
          -- the remark is the end of the script
          obtain ⟨rfl, rfl⟩ := hrest.of_nil
          rw [scanRow_nil_eq]
          refine ⟨_, Standing.leads_nil hx, ?_, .inl ⟨rfl, Keeps.refl s⟩⟩
          exact ⟨h.marks, h.depth, h.joined, h.begun, h.open?⟩
      | cons c r' =>
          have hc : c = '\n' ∨ c = '\r' := by
            have hnot := List.head?_dropWhile_not (fun c => c ≠ '\n' && c ≠ '\r') r
            rw [hbehind] at hnot
            simpa [or_iff_not_imp_left] using hnot
          rw [List.cons_append, Standing.standings_remark_break h.marks h.code h.fresh hc] at hx
          refine ih h hrest ?_ hx
          simp only [List.length_cons] at hlength hle ⊢
          omega
  | case10 fuel s t c r _ _ _ _ _ hdrop hc hfront rest hend ih =>
      obtain ⟨hline, hx, hlength, -⟩ := h.dropGaps hline hx hdrop
      obtain ⟨hbody, heq⟩ := standings_triple h hc hline hfront
      obtain ⟨hrest, hle, hcode⟩ := Standing.standings_stringEnd (s := { u with begun := true }) hc hend
        h.marks hbody
      rw [List.cons_append, heq, hcode, h.mark_eq] at hx
      refine (keeps_mark s).reads (ih h.mark hrest ?_ hx)
      simp only [List.length_cons, List.length_drop] at hlength hle
      omega
  | case11 fuel s t c r _ _ _ _ _ hdrop hc hfront hnone =>
      obtain ⟨hline, hx, -, -⟩ := h.dropGaps hline hx hdrop
      obtain ⟨hbody, heq⟩ := standings_triple h hc hline hfront
      exact reads_triple h hc hbody hnone (heq.symm.trans hx)
  | case12 fuel s t c r _ _ _ _ _ hdrop hc hnot rest hends ih =>
      obtain ⟨hline, hx, hlength, -⟩ := h.dropGaps hline hx hdrop
      have hbody := hline.tail (isRowQuote_ne hc).2.1
      have hsingle := Standing.singleString_lineString (s := { u with begun := true }) hc h.marks h.fresh
        hbody
      rw [hends] at hsingle
      cases hsingle with
      | ends hend =>
          obtain ⟨hrest, hle, hcode⟩ := Standing.standings_stringEnd (s := { u with begun := true }) hc
            hend h.marks hbody
          rw [List.cons_append, standings_single h hc hline hnot, hcode, h.mark_eq] at hx
          refine (keeps_mark s).reads (ih h.mark hrest ?_ hx)
          simp only [List.length_cons] at hlength
          omega
  | case13 fuel s t c r _ _ _ _ _ hdrop hc hnot hcontinues =>
      obtain ⟨hline, hx, -, -⟩ := h.dropGaps hline hx hdrop
      have hbody := hline.tail (isRowQuote_ne hc).2.1
      have hsingle := Standing.singleString_lineString (s := { u with begun := true }) hc h.marks h.fresh
        hbody
      rw [hcontinues] at hsingle
      cases hsingle with
      | continues _ _ hleads =>
          exact .of_inside (hleads x ((standings_single h hc hline hnot).symm.trans hx))
            (agrees_openString h hc false) (fun _ => .inr ⟨c, false, rfl⟩) (fun _ => rfl)
            (keeps_openString s _ _)
  | case14 fuel s t c r _ _ _ _ _ hdrop hc hnot hbroken ih =>
      obtain ⟨hline, hx, -, -⟩ := h.dropGaps hline hx hdrop
      have hbody := hline.tail (isRowQuote_ne hc).2.1
      have hsingle := Standing.singleString_lineString (s := { u with begun := true }) hc h.marks h.fresh
        hbody
      rw [hbroken] at hsingle
      cases hsingle with
      | broken _ hstops =>
          rw [List.cons_append, standings_single h hc hline hnot, hstops] at hx
          cases hx
  | case15 fuel s t c r hjoin hjoin' hbreak hreturn hremark hdrop hc depth =>
      rename_i ih
      obtain ⟨hline, hx, hlength, hgap⟩ := h.dropGaps hline hx hdrop
      obtain ⟨u', hnext, hcode⟩ := exists_next_other h hline hjoin hjoin' hbreak hreturn hremark
        (hgap c rfl) (Bool.eq_false_iff.2 hc) hx
      rw [List.cons_append, Standing.standings_cons hbreak hnext] at hx
      refine Keeps.reads ?_ (ih hcode (hline.tail hbreak) ?_ hx)
      · exact ⟨(keeps_mark s).row, (keeps_mark s).spans, (keeps_mark s).start⟩
      · simp only [List.length_cons] at hlength
        omega

end

end Stencil.Script
