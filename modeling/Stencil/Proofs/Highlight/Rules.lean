import Stencil.Highlight
import Stencil.Proofs.Segment.Matching

/-!
# The rules of the highlighter

What the highlighter splits a template into is also said by rules: patterns that are tried in order at
each place, the first one that matches standing. Three rules read a directive off, by its marker, as
little as possible behind it, and `%>`; two read off what is left, a run of text without `<` and a `<`
that opens nothing. `lexFrom_eq` says that these rules give the pieces of a text, and that one of them
matches at every place.
-/

namespace Stencil.Highlight

open Text (Pattern Spot Captures)
open Text.Pattern
open Segment (closeMark)

/-- A rule: its pattern, and the kinds of the texts of its groups, which count from one. -/
structure Rule where
  pattern : Pattern
  kinds : List Kind

/-- The pattern of characters in a row. -/
def spelled (c : Char) : Text → Pattern
  | [] => .char c
  | d :: r => .seq (.char c) (spelled d r)

/-- The body of a directive, group 2, and its closing marker, group 3. -/
def bodyPattern : Pattern :=
  .seq (.group 2 (.lazy fun _ => true)) (.group 3 (spelled '%' ['>']))

/-- The rule for remarks. -/
def remarkRule : Rule :=
  ⟨.seq (.group 1 (spelled '<' ['%', '#'])) bodyPattern, [.marker, .comment, .marker]⟩

/-- The rule for expressions. The second `=` is taken when it is there. -/
def expressionRule : Rule :=
  ⟨.seq (.group 1 (.seq (spelled '<' ['%', '=']) (.optional (.char '=')))) bodyPattern,
    [.marker, .code, .marker]⟩

/-- The rule for statements. -/
def statementRule : Rule :=
  ⟨.seq (.group 1 (spelled '<' ['%'])) bodyPattern, [.marker, .code, .marker]⟩

/-- The rule for text without a bracket. -/
def textRule : Rule :=
  ⟨.group 1 (.seq (.one (· ≠ '<')) (.greedy (· ≠ '<'))), [.other]⟩

/-- The rule for a bracket that opens no directive. -/
def bracketRule : Rule :=
  ⟨.group 1 (.char '<'), [.other]⟩

/-- The rules in the order in which they are tried. -/
def rules : List Rule :=
  [remarkRule, expressionRule, statementRule, textRule, bracketRule]

/-- What a rule makes of a match: the texts of its groups, and the text behind them. -/
def Rule.split (rule : Rule) (m : Pattern.Match) : List Piece × Text :=
  (rule.kinds.mapIdx fun i kind => ⟨kind, (m.group? (i + 1)).getD []⟩, m.finish.rest)

/-- What a rule makes of the start of a text, if it matches there. -/
def Rule.pieces? (rule : Rule) (t : Text) : Option (List Piece × Text) :=
  (rule.pattern.match? ⟨false, t⟩).map rule.split

/-- A token: a piece, or a character at which no rule matches. -/
inductive Token where
  | piece (p : Piece)
  | error (c : Char)
  deriving Repr, DecidableEq

/-- Whether there is something of a piece to be put out. -/
def Piece.shows (p : Piece) : Bool := !p.text.isEmpty

/-- The tokens of a text from the front on: the groups that are not empty. The fuel is the length of the
text. -/
def lexFrom : Nat → Text → List Token
  | 0, _ => []
  | _, [] => []
  | fuel + 1, c :: r =>
    match rules.findSome? (·.pieces? (c :: r)) with
    | some (ps, rest) => (ps.filter Piece.shows).map .piece ++ lexFrom fuel rest
    | none => .error c :: lexFrom fuel r

/-- The tokens of a text. -/
def lex (t : Text) : List Token :=
  lexFrom (t.length + 1) t

/-! ## What the patterns match -/

variable {β : Type}

/-- Characters in a row are matched where they stand. -/
theorem run_spelled {c : Char} {r : Text} (h : '\n' ∉ c :: r) (fresh : Bool) (t : Text)
    (caught : Captures) (next : Spot → Captures → Option β) :
    (spelled c r).run ⟨fresh, t⟩ caught next =
      if c :: r <+: t then next ⟨false, t.drop (c :: r).length⟩ caught else none := by
  induction r generalizing c fresh t with
  | nil =>
      have hc : c ≠ '\n' := fun hc => h (hc ▸ List.mem_cons_self)
      rcases t with _ | ⟨d, t⟩
      · rfl
      · rw [spelled, run_char_cons]
        by_cases hd : d = c
        · subst hd
          simp [Spot.behind, hc]
        · simp [hd, Ne.symm hd]
  | cons d r ih =>
      have hd : '\n' ∉ d :: r := fun hmem => h (List.mem_cons_of_mem _ hmem)
      rcases t with _ | ⟨e, t⟩
      · rfl
      · rw [spelled, run_char_seq]
        by_cases he : e = c
        · subst he
          rw [if_pos rfl, Spot.behind, ih hd]
          simp
        · simp [he, Ne.symm he]

/-- The shortest body that the closing marker follows is the text up to that marker. -/
theorem run_bodyPattern {next : Spot → Captures → Option β} (hnext : ∀ s caught, next s caught ≠ none)
    (fresh : Bool) (t : Text) (caught : Captures) :
    bodyPattern.run ⟨fresh, t⟩ caught next =
      match Text.cutAt? closeMark t with
      | some (body, after) => next ⟨false, after⟩ ((3, closeMark) :: (2, body) :: caught)
      | none => none := by
  have hclose (fresh : Bool) (t : Text) (caught : Captures) :
      (Pattern.group 3 (spelled '%' ['>'])).run ⟨fresh, t⟩ caught next =
        if closeMark <+: t then next ⟨false, t.drop 2⟩ ((3, closeMark) :: caught) else none := by
    show (spelled '%' ['>']).run ⟨fresh, t⟩ caught _ = if ['%', '>'] <+: t then _ else none
    rw [run_spelled (by decide)]
    split
    · next h =>
        obtain ⟨r, rfl⟩ := h
        exact congrArg (fun mark => next ⟨false, r⟩ ((3, mark) :: caught))
          (Spot.upTo_append fresh false closeMark r)
    · rfl
  -- the induction is on the text ahead, with the part of the body that was passed over in front
  have hlazy (passed : Text) (start fresh : Bool) (t : Text) :
      runLazy (fun _ => true) (fun s =>
          (Pattern.group 3 (spelled '%' ['>'])).run s
            ((2, (Spot.mk start (passed ++ t)).upTo s) :: caught) next) fresh t =
        match Text.cutAt? closeMark t with
        | some (body, after) => next ⟨false, after⟩ ((3, closeMark) :: (2, passed ++ body) :: caught)
        | none => none := by
    induction t generalizing passed fresh with
    | nil => rfl
    | cons c r ih =>
        by_cases hstarts : closeMark <+: c :: r
        · obtain ⟨x, hx⟩ := Option.ne_none_iff_exists'.1
            (hnext ⟨false, (c :: r).drop 2⟩ ((3, closeMark) :: (2, passed) :: caught))
          have hcut : Text.cutAt? closeMark (c :: r) = some ([], (c :: r).drop 2) :=
            Text.cutAt?_of_starts hstarts
          rw [hcut]
          dsimp only
          rw [List.append_nil, hx]
          refine runLazy_stop ?_
          rw [hclose, if_pos hstarts, Spot.upTo_append]
          exact hx
        · have hnone := hclose fresh (c :: r) ((2, (Spot.mk start (passed ++ c :: r)).upTo
            ⟨fresh, c :: r⟩) :: caught)
          rw [if_neg hstarts] at hnone
          rw [runLazy_pass hnone, Text.cutAt?_cons hstarts]
          have hrest := ih (passed ++ [c]) (c = '\n')
          simp only [List.append_assoc, List.singleton_append] at hrest
          rw [hrest]
          cases Text.cutAt? closeMark r <;> rfl
  exact hlazy [] fresh fresh t

/-- The first of two patterns in a row is a group: the second goes on with what it has matched. -/
theorem run_group_seq (number : Nat) (a b : Pattern) (s : Spot) (caught : Captures)
    (next : Spot → Captures → Option β) :
    (Pattern.seq (.group number a) b).run s caught next =
      a.run s caught fun finish caught => b.run finish ((number, s.upTo finish) :: caught) next := rfl

/-- The second of two patterns in a row is optional: it is left out when nothing can come next behind it. -/
theorem run_seq_optional (a b : Pattern) (s : Spot) (caught : Captures)
    (next : Spot → Captures → Option β) :
    (Pattern.seq a (.optional b)).run s caught next =
      a.run s caught fun s caught => (b.run s caught next).or (next s caught) := rfl

/-- The pieces of a directive with the given marker and the text behind it, when one is closed. -/
def opened? (marker : Text) (kind : Kind) (t : Text) : Option (List Piece × Text) :=
  (Text.cutAt? closeMark t).map fun x => ([⟨.marker, marker⟩, ⟨kind, x.1⟩, ⟨.marker, closeMark⟩], x.2)

/-- A directive is closed at the same place whether or not its body starts one character earlier. -/
theorem opened?_or {c : Char} (hc : c ≠ '%') (marker marker' : Text) (kind kind' : Kind) (r : Text) :
    (opened? marker kind r).or (opened? marker' kind' (c :: r)) = opened? marker kind r := by
  rw [opened?, opened?, Segment.cutAt?_closeMark_cons hc]
  cases Text.cutAt? closeMark r <;> rfl

/-- What a rule makes of a directive once its marker has been matched. -/
theorem split_bodyPattern (a : Pattern) (marker t : Text) (kind : Kind) (fresh : Bool) :
    ((bodyPattern.run ⟨fresh, t⟩ [(1, (Spot.mk false (marker ++ t)).upTo ⟨fresh, t⟩)]
        fun finish caught => some ⟨[], ⟨false, marker ++ t⟩, finish, caught⟩).map
      (Rule.split ⟨a, [.marker, kind, .marker]⟩)) = opened? marker kind t := by
  rw [run_bodyPattern (fun _ _ => Option.some_ne_none _), Spot.upTo_append, opened?]
  cases Text.cutAt? closeMark t <;> rfl

/-- The rule of a marker that is spelled out. -/
theorem pieces?_spelled {c : Char} {r : Text} (h : '\n' ∉ c :: r) (kind : Kind) (t : Text) :
    Rule.pieces? ⟨.seq (.group 1 (spelled c r)) bodyPattern, [.marker, kind, .marker]⟩ t =
      if c :: r <+: t then opened? (c :: r) kind (t.drop (c :: r).length) else none := by
  rw [Rule.pieces?, Pattern.match?, run_group_seq, run_spelled h]
  split
  · next hstarts =>
      obtain ⟨u, rfl⟩ := hstarts
      rw [List.drop_left]
      exact split_bodyPattern _ _ _ _ _
  · rfl

/-- The rule for expressions matches nothing but expressions. -/
theorem pieces?_expressionRule_eq_none {t : Text} (h : ¬ ['<', '%', '='] <+: t) :
    expressionRule.pieces? t = none := by
  rw [Rule.pieces?, Pattern.match?, expressionRule, run_group_seq, run_seq_optional,
    run_spelled (by decide), if_neg h]
  rfl

/-- The rule for expressions takes both signs when they are there, and would find the same closing
marker without the second one. -/
theorem pieces?_expressionRule (r : Text) :
    expressionRule.pieces? ('<' :: '%' :: '=' :: r) =
      match r with
      | '=' :: r' => opened? ['<', '%', '=', '='] .code r'
      | _ => opened? ['<', '%', '='] .code r := by
  have hone := split_bodyPattern expressionRule.pattern ['<', '%', '='] r .code false
  rw [Rule.pieces?, Pattern.match?, expressionRule, run_group_seq, run_seq_optional,
    run_spelled (by decide), if_pos (show ['<', '%', '='] <+: '<' :: '%' :: '=' :: r from ⟨r, rfl⟩),
    Option.map_or]
  refine (congrArg (Option.or _) hone).trans ?_
  rcases r with _ | ⟨c, r⟩
  · rfl
  · show (Option.map _ ((Pattern.char '=').run ⟨false, c :: r⟩ _ _)).or _ = _
    rw [run_char_cons]
    by_cases hc : c = '='
    · subst hc
      have htwo := split_bodyPattern expressionRule.pattern ['<', '%', '=', '='] r .code false
      rw [if_pos rfl]
      refine (congrArg (Option.or · _) htwo).trans ?_
      exact opened?_or (by decide) _ _ _ _ _
    · rw [if_neg hc, Option.map_none, Option.none_or]
      split
      · next heq => exact absurd (List.cons.inj heq).1 hc
      · rfl

/-- A run of characters of a class takes all of them when anything can come next. -/
theorem runGreedy_of_ne_none (p : Char → Bool) {next : Spot → Option β} (hnext : ∀ s, next s ≠ none)
    (fresh : Bool) (t : Text) : ∃ fresh', runGreedy p next fresh t = next ⟨fresh', t.dropWhile p⟩ := by
  induction t generalizing fresh with
  | nil => exact ⟨fresh, rfl⟩
  | cons c r ih =>
      rw [runGreedy, List.dropWhile_cons]
      split
      · obtain ⟨fresh', h⟩ := ih (c = '\n')
        obtain ⟨x, hx⟩ := Option.ne_none_iff_exists'.1 (hnext ⟨fresh', r.dropWhile p⟩)
        refine ⟨fresh', ?_⟩
        rw [h, hx, Option.some_or]
      · exact ⟨fresh, rfl⟩

/-- Text without a bracket is taken as far as it goes. -/
theorem pieces?_textRule {c : Char} (hc : c ≠ '<') (r : Text) :
    textRule.pieces? (c :: r) =
      some ([⟨.other, (c :: r).takeWhile (· ≠ '<')⟩], (c :: r).dropWhile (· ≠ '<')) := by
  have hclass : decide (c ≠ '<') = true := decide_eq_true hc
  let found (s : Spot) : Pattern.Match := ⟨[], ⟨false, c :: r⟩, s, [(1, (Spot.mk false (c :: r)).upTo s)]⟩
  obtain ⟨fresh, hrun⟩ :=
    runGreedy_of_ne_none (· ≠ '<') (fun s => Option.some_ne_none (found s)) (c = '\n') r
  have hup : (Spot.mk false (c :: r)).upTo ⟨fresh, r.dropWhile (· ≠ '<')⟩ = c :: r.takeWhile (· ≠ '<') := by
    have happend := Spot.upTo_append false fresh (c :: r.takeWhile (· ≠ '<')) (r.dropWhile (· ≠ '<'))
    rwa [List.cons_append, List.takeWhile_append_dropWhile] at happend
  rw [Rule.pieces?, Pattern.match?, textRule]
  show Option.map _ (if decide (c ≠ '<') = true then runGreedy _ _ _ _ else none) = _
  rw [if_pos hclass, List.takeWhile_cons_of_pos (p := (· ≠ '<')) hclass,
    List.dropWhile_cons_of_pos (p := (· ≠ '<')) hclass, ← hup]
  exact congrArg (Option.map _) hrun

/-- The rules for directives read off what the highlighter takes for a directive. -/
theorem or_directiveRules (t : Text) :
    ((remarkRule.pieces? t).or ((expressionRule.pieces? t).or (statementRule.pieces? t))) =
      (directive? t).map fun x =>
        ([⟨.marker, x.1⟩, ⟨if x.1 == ['<', '%', '#'] then .comment else .code, x.2.1⟩,
          ⟨.marker, closeMark⟩], x.2.2) := by
  have hremark : remarkRule.pieces? t =
      if ['<', '%', '#'] <+: t then opened? ['<', '%', '#'] .comment (t.drop 3) else none :=
    pieces?_spelled (by decide) .comment t
  have hstatement : statementRule.pieces? t =
      if ['<', '%'] <+: t then opened? ['<', '%'] .code (t.drop 2) else none :=
    pieces?_spelled (by decide) .code t
  have hfound (m : Text) :
      opened? m (if m == ['<', '%', '#'] then .comment else .code) (t.drop m.length) =
        ((some m).bind fun m => (Text.cutAt? closeMark (t.drop m.length)).map fun x =>
          (m, x.1, x.2)).map fun x =>
            ([⟨.marker, x.1⟩, ⟨if x.1 == ['<', '%', '#'] then .comment else .code, x.2.1⟩,
              ⟨.marker, closeMark⟩], x.2.2) := by
    rw [opened?, Option.bind_some, Option.map_map]
    rfl
  unfold directive?
  split
  · next r =>
      rw [hremark, hstatement, pieces?_expressionRule_eq_none (by simp), Option.none_or]
      rw [if_pos ⟨r, rfl⟩, if_pos ⟨'#' :: r, rfl⟩]
      exact (opened?_or (by decide) _ _ _ _ _).trans (hfound ['<', '%', '#'])
  · next r =>
      rw [hremark, hstatement, pieces?_expressionRule, if_neg (by simp), Option.none_or]
      rw [if_pos ⟨'=' :: '=' :: r, rfl⟩]
      -- without the signs the body of a statement would be closed at the same place
      have hone := opened?_or (c := '=') (by decide) ['<', '%', '='] ['<', '%'] .code .code ('=' :: r)
      have htwo := opened?_or (c := '=') (by decide) ['<', '%', '=', '='] ['<', '%', '='] .code .code r
      show (opened? ['<', '%', '=', '='] .code r).or (opened? ['<', '%'] .code ('=' :: '=' :: r)) = _
      rw [← htwo, Option.or_assoc, hone, htwo]
      exact hfound ['<', '%', '=', '=']
  · next r hr =>
      rw [hremark, hstatement, pieces?_expressionRule, if_neg (by simp), Option.none_or]
      rw [if_pos ⟨'=' :: r, rfl⟩]
      split
      · next r' => exact absurd rfl (hr r')
      · exact (opened?_or (by decide) _ _ _ _ _).trans (hfound ['<', '%', '='])
  · next r hremark' _ hsign =>
      have hnone : ¬ ['<', '%', '='] <+: '<' :: '%' :: r := by
        rintro ⟨u, hu⟩
        exact hsign u (by simpa using hu.symm)
      have hnone' : ¬ ['<', '%', '#'] <+: '<' :: '%' :: r := by
        rintro ⟨u, hu⟩
        exact hremark' u (by simpa using hu.symm)
      rw [hremark, hstatement, pieces?_expressionRule_eq_none hnone, if_neg hnone', Option.none_or,
        Option.none_or, if_pos ⟨r, rfl⟩]
      exact hfound ['<', '%']
  · next h =>
      have hopen : ¬ ['<', '%'] <+: t := by
        rintro ⟨u, hu⟩
        exact h u hu.symm
      have hmark : ¬ ['<', '%', '#'] <+: t := fun hu => hopen (.trans ⟨['#'], rfl⟩ hu)
      have hsign : ¬ ['<', '%', '='] <+: t := fun hu => hopen (.trans ⟨['='], rfl⟩ hu)
      rw [hremark, hstatement, pieces?_expressionRule_eq_none hsign, if_neg hmark, if_neg hopen]
      rfl

/-- One of the rules matches at every place, and the first one that does reads off what the highlighter
takes from there. -/
theorem findSome?_rules (fuel : Nat) (c : Char) (r : Text) :
    ∃ ps rest, rules.findSome? (·.pieces? (c :: r)) = some (ps, rest) ∧
      piecesFrom (fuel + 1) (c :: r) = ps ++ piecesFrom fuel rest := by
  have hrules : rules.findSome? (·.pieces? (c :: r)) =
      ((remarkRule.pieces? (c :: r)).or ((expressionRule.pieces? (c :: r)).or
        (statementRule.pieces? (c :: r)))).or
          ((textRule.pieces? (c :: r)).or (bracketRule.pieces? (c :: r))) := by
    simp only [rules, List.findSome?_cons, List.findSome?_nil]
    cases remarkRule.pieces? (c :: r) <;> cases expressionRule.pieces? (c :: r) <;>
      cases statementRule.pieces? (c :: r) <;> cases textRule.pieces? (c :: r) <;>
      cases bracketRule.pieces? (c :: r) <;> rfl
  rw [hrules, or_directiveRules, piecesFrom]
  cases directive? (c :: r) with
  | some x => exact ⟨_, _, rfl, rfl⟩
  | none =>
      dsimp only
      split
      · next hc =>
          subst hc
          have hup : (Spot.mk false ('<' :: r)).upTo ⟨false, r⟩ = ['<'] := Spot.upTo_append _ _ ['<'] r
          refine ⟨[⟨.other, ['<']⟩], r, ?_, rfl⟩
          show some ([(⟨.other, (Spot.mk false ('<' :: r)).upTo ⟨false, r⟩⟩ : Piece)], r) = _
          rw [hup]
      · next hc =>
          rw [pieces?_textRule hc, Segment.drop_length_takeWhile]
          exact ⟨_, _, rfl, rfl⟩

/-- The tokens of a text are its pieces: a rule matches everywhere. -/
theorem lexFrom_eq (fuel : Nat) (t : Text) :
    lexFrom fuel t = ((piecesFrom fuel t).filter Piece.shows).map .piece := by
  induction fuel generalizing t with
  | zero => rfl
  | succ fuel ih =>
      cases t with
      | nil => rfl
      | cons c r =>
          obtain ⟨ps, rest, hrules, hpieces⟩ := findSome?_rules fuel c r
          rw [lexFrom, hrules, hpieces, List.filter_append, List.map_append, ← ih]

/-- A bracket in front of a marker is other text, and an empty body is no token. -/
example : lex "<<%=%>".toList =
    [.piece ⟨.other, ['<']⟩, .piece ⟨.marker, ['<', '%', '=']⟩, .piece ⟨.marker, closeMark⟩] := by
  decide

end Stencil.Highlight
