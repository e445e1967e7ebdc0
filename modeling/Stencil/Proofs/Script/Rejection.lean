import Stencil.Script.Check
import Stencil.Proofs.Script.Continuation
import Stencil.Proofs.Script.Lexing
import Stencil.Proofs.Script.Parsing

/-!
# Scripts that start with no statement

A word that continues a block, an indentation and a fault of the lexer start no statement: every reader
down to the atoms fails there (`fails_wholeScript`). Hence a text whose first word continues a block is
no script, whatever blanks stand in front of it (`parse_of_continuing`).
-/

namespace Stencil.Script

open Parse
open Text (isAsciiDigit)

/-! ## Readers that fail -/

/-- The words that continue a block. -/
def continuingWords : List String := ["elif", "else", "except", "finally"]

/-- Whether a token starts neither a statement nor an expression: it continues a block, indents, or is a
fault. -/
def Lexeme.startsNothing : Lexeme → Bool
  | .keyword w => continuingWords.contains w
  | .indent | .fault _ => true
  | _ => false

/-- A reader fails at the front of tokens. -/
def Fails {α : Type} (p : Parse α) (ts : List Token) : Prop :=
  ∃ f, p ts = .error f

section

variable {α β : Type} {p : Parse α} {f : α → Parse β} {ts s : List Token}

/-- What follows a reader that fails is not read. -/
theorem Fails.bind (h : Fails p ts) (f : α → Parse β) : Fails (p >>= f) ts := by
  obtain ⟨e, h⟩ := h
  exact ⟨e, by rw [bind_apply, h]; rfl⟩

/-- A reader that gives something may be followed by one that fails. -/
theorem Fails.after {a : α} (hp : p ts = .ok (a, s)) (h : Fails (f a) s) : Fails (p >>= f) ts := by
  obtain ⟨e, h⟩ := h
  exact ⟨e, (bind_ok hp).trans h⟩

/-- A loop fails where its first step does. -/
theorem Fails.loop {t : Token} {step : α → Parse (Option α)} {a : α} (h : Fails (step a) (t :: ts)) :
    Fails (loop step a) (t :: ts) := by
  obtain ⟨f, h⟩ := h
  refine ⟨f, ?_⟩
  change iterate step (t :: ts) a (t :: ts) = _
  rw [iterate, bind_apply, h]
  rfl

end

/-! ## Readers at tokens that start nothing -/

section

variable {t : Token} {ts : List Token}

/-- The tokens that start nothing, one by one. -/
theorem startsNothing_cases {x : Lexeme} (h : x.startsNothing) :
    x = .keyword "elif" ∨ x = .keyword "else" ∨ x = .keyword "except" ∨ x = .keyword "finally" ∨
      x = .indent ∨ ∃ f, x = .fault f := by
  cases x with
  | keyword w =>
      have hw : w ∈ continuingWords := by simpa [Lexeme.startsNothing] using h
      simpa [continuingWords] using hw
  | indent => simp
  | fault f => simp
  | _ => exact absurd h Bool.false_ne_true

/-- A token that starts nothing is no mark. -/
theorem isOp_of_startsNothing {x : Lexeme} (h : x.startsNothing) (m : String) : x.isOp m = false := by
  rcases startsNothing_cases h with h | h | h | h | h | ⟨f, h⟩ <;> rw [h] <;> rfl

/-- The only keywords that start nothing are those that continue a block. -/
theorem isWord_of_startsNothing {x : Lexeme} (h : x.startsNothing) {w : String}
    (hw : w ∉ continuingWords) : x.isWord w = false := by
  rw [Bool.eq_false_iff]
  intro hword
  cases x with
  | keyword w' =>
      obtain rfl : w = w' := beq_iff_eq.1 hword
      exact hw (List.contains_iff_mem.1 h)
  | _ => exact absurd hword Bool.false_ne_true

/-- What starts nothing starts no expression. -/
theorem startsExpression_of_startsNothing {x : Lexeme} (h : x.startsNothing) :
    x.startsExpression = false := by
  rcases startsNothing_cases h with h | h | h | h | h | ⟨f, h⟩ <;> rw [h] <;> rfl

/-- A token that starts no expression is none of the words that do. -/
theorem isWord_of_startsExpression {x : Lexeme} (h : x.startsExpression = false) {w : String}
    (hw : w ∈ ["None", "True", "False", "not", "lambda", "await"]) : x.isWord w = false := by
  rw [Bool.eq_false_iff]
  intro hword
  cases x with
  | keyword w' =>
      obtain rfl : w = w' := beq_iff_eq.1 hword
      exact Bool.eq_false_iff.1 h (List.contains_iff_mem.2 hw)
  | _ => exact absurd hword Bool.false_ne_true

/-- Signed powers start with no token that starts no expression. -/
theorem fails_factor (g : Grammar) (h : t.lexeme.startsExpression = false) :
    Fails (factor g) (t :: ts) := by
  have hatom : Fails (atom g) (t :: ts) := by
    refine Fails.after (line_cons t ts) (Fails.after (peek_cons t ts) ?_)
    split
    case h_11 => exact ⟨_, rfl⟩
    all_goals
      next heq =>
        rw [heq] at h
        cases h
  have hprimary : Fails (primary g) (t :: ts) := Fails.after (line_cons t ts) (hatom.bind _)
  have hawaited : Fails (awaited g) (t :: ts) := by
    refine Fails.after (line_cons t ts) (Fails.after (takeWord_cons t ts "await") ?_)
    rw [isWord_of_startsExpression h (by decide), if_neg (by simp), if_neg (by simp)]
    exact hprimary
  refine Fails.after (line_cons t ts) (Fails.after (peek_cons t ts) ?_)
  split
  case h_4 => exact hawaited.bind _
  all_goals
    next heq =>
      rw [heq] at h
      cases h

/-- Operators do not start where their operands do not. -/
theorem fails_leftAssoc (ops : List (String × BinaryOp)) {operand : Parse Expr}
    (h : Fails operand (t :: ts)) : Fails (leftAssoc ops operand) (t :: ts) :=
  Fails.after (line_cons t ts) (h.bind _)

/-- Operands that are joined by a word do not start where one of them does not. -/
theorem fails_chain (word : String) (conjunction : Bool) {operand : Parse Expr}
    (h : Fails operand (t :: ts)) : Fails (chain word conjunction operand) (t :: ts) :=
  Fails.after (line_cons t ts) (h.bind _)

/-- Expressions start with a token that may start one. -/
theorem fails_expression (n : Nat) (h : t.lexeme.startsExpression = false) :
    Fails (Grammar.level n).expression (t :: ts) := by
  cases n with
  | zero => exact ⟨_, rfl⟩
  | succ n =>
      have hfactor : Fails (Grammar.level n).factor (t :: ts) := by
        cases n with
        | zero => exact ⟨_, rfl⟩
        | succ n => exact fails_factor (.level n) h
      have hbitOr : Fails (bitOr (.level n)) (t :: ts) :=
        fails_leftAssoc _ (fails_leftAssoc _ (fails_leftAssoc _ (fails_leftAssoc _ (fails_leftAssoc _
          (fails_leftAssoc _ hfactor)))))
      have hcomparison : Fails (comparison (.level n)) (t :: ts) :=
        Fails.after (line_cons t ts) (hbitOr.bind _)
      have hnegations : negations (t :: ts) = .ok ([], t :: ts) := by
        refine (Loops.done ?_).loop_eq
        simp [isWord_of_startsExpression h (w := "not") (by decide), Except.bind]
      have hdisjunction : Fails (disjunction (.level n)) (t :: ts) :=
        fails_chain _ _ (fails_chain _ _ (Fails.after hnegations (hcomparison.bind _)))
      obtain ⟨a, ha⟩ := exists_startsAmbiguously t ts
      change Fails (expression (.level n)) (t :: ts)
      refine Fails.after (atWord_cons t ts "lambda") ?_
      rw [isWord_of_startsExpression h (by decide), if_neg (by simp)]
      exact Fails.after (line_cons t ts) (Fails.after ha (hdisjunction.bind _))

/-- Simple statements do not start there. -/
theorem fails_simpleLine (n : Nat) (h : t.lexeme.startsNothing) :
    Fails (simpleLine (.level n)) (t :: ts) := by
  have hitem : Fails (starExpression (.level n)) (t :: ts) := by
    refine Fails.after (line_cons t ts) (Fails.after (takeOp_cons t ts "*") ?_)
    rw [isOp_of_startsNothing h, if_neg (by simp), if_neg (by simp)]
    exact fails_expression n (startsExpression_of_startsNothing h)
  have hitems : Fails (starExpressions (.level n)) (t :: ts) :=
    Fails.after (line_cons t ts) (hitem.bind _)
  have hexpression : Fails (expressionStatement (.level n)) (t :: ts) := by
    refine Fails.after (line_cons t ts) (Fails.after (atOp_cons t ts "(")
      (Fails.after (atWord_cons t ts "yield") ?_))
    rw [isWord_of_startsNothing h (by decide), if_neg (by simp)]
    exact hitems.bind _
  have hsimple : Fails (simpleStatement (.level n)) (t :: ts) := by
    refine Fails.after (line_cons t ts) (Fails.after (peek_cons t ts) ?_)
    rcases startsNothing_cases h with h | h | h | h | h | ⟨f, h⟩ <;> rw [h] <;> exact hexpression
  exact hsimple.bind _

/-- A script does not start with a token that starts no statement. -/
theorem fails_wholeScript (n : Nat) (h : t.lexeme.startsNothing) :
    Fails (wholeScript (.level n)) (t :: ts) := by
  have hstatement : Fails (Grammar.level n).statement (t :: ts) := by
    cases n with
    | zero => exact ⟨_, rfl⟩
    | succ n =>
        refine Fails.after (line_cons t ts) (Fails.after (peek_cons t ts) ?_)
        rcases startsNothing_cases h with h' | h' | h' | h' | h' | ⟨f, h'⟩ <;> rw [h'] <;>
          exact fails_simpleLine n h
  refine (Fails.loop ?_).bind _
  refine Fails.after (peek_cons t ts) ?_
  rcases startsNothing_cases h with h' | h' | h' | h' | h' | ⟨f, h'⟩ <;> rw [h'] <;>
    exact hstatement.bind _

end

/-! ## Texts that start with a word that continues a block -/

/-- The lexer finds a token that starts nothing first. -/
def Rejects (s : LexState) : Prop :=
  ∀ fuel, s.size < fuel → ∃ t ts, lexFrom fuel s = t :: ts ∧ t.lexeme.startsNothing

section

variable {s s' : LexState} {t : Token} {ts : List Token} {line : Nat}

/-- The first token starts nothing, and the lexer goes on. -/
theorem Rejects.of_more (h : s.step = .more (t :: ts) s') (ht : t.lexeme.startsNothing) : Rejects s := by
  intro fuel hfuel
  obtain ⟨fuel, rfl⟩ := Nat.exists_eq_add_of_le' (Nat.lt_of_le_of_lt (Nat.zero_le _) hfuel)
  exact ⟨t, ts ++ lexFrom fuel s', by rw [lexFrom, h]; rfl, ht⟩

/-- The first token starts nothing, and the lexer ends. -/
theorem Rejects.of_last (h : s.step = .last (t :: ts)) (ht : t.lexeme.startsNothing) : Rejects s := by
  intro fuel hfuel
  obtain ⟨fuel, rfl⟩ := Nat.exists_eq_add_of_le' (Nat.lt_of_le_of_lt (Nat.zero_le _) hfuel)
  exact ⟨t, ts, by rw [lexFrom, h], ht⟩

/-- A step without tokens comes first. -/
theorem Rejects.of_step (h : s.step = .more [] s') (hsize : s'.size < s.size) (h' : Rejects s') :
    Rejects s := by
  intro fuel hfuel
  obtain ⟨fuel, rfl⟩ := Nat.exists_eq_add_of_le' (Nat.lt_of_le_of_lt (Nat.zero_le _) hfuel)
  rw [lexFrom, h]
  exact h' fuel (by omega)

/-- Gaps at the start of a line are measured. -/
theorem measure_gaps {gaps : Text} (hgaps : ∀ c ∈ gaps, isRowGap c) {c : Char} (hc : ¬ isRowGap c)
    (hescape : c ≠ '\\') (wide narrow line : Nat) (r : Text) :
    ∃ col narrow', measure wide narrow 0 line (gaps ++ c :: r) = .ok (col, narrow', line, c :: r) := by
  induction gaps generalizing wide narrow with
  | nil =>
      have h : c ≠ ' ' ∧ c ≠ '\t' ∧ c ≠ '\x0c' := by
        simpa [isRowGap, and_assoc] using hc
      exact ⟨wide, narrow, by simp [measure, h, hescape]⟩
  | cons d gaps ih =>
      have hd : d = ' ' ∨ d = '\t' ∨ d = '\x0c' := by
        simpa [isRowGap, or_assoc] using hgaps d List.mem_cons_self
      have ih := ih fun c hc => hgaps c (List.mem_cons_of_mem _ hc)
      rcases hd with rfl | rfl | rfl
      · exact ih (wide + 1) (narrow + 1)
      · exact ih ((wide / 8 + 1) * 8) (narrow + 1)
      · exact ih 0 0

/-- Only an indentation or a fault can come of the indentation of a first line. -/
theorem reindent_base (col narrow : Nat) :
    reindent [(0, 0)] col narrow = .ok (0, false, [(0, 0)]) ∨
      (∃ columns, reindent [(0, 0)] col narrow = .ok (0, true, columns)) ∨
      ∃ cause, reindent [(0, 0)] col narrow = .error cause := by
  rw [reindent]
  split
  · split
    · exact .inl rfl
    · exact .inr (.inr ⟨_, rfl⟩)
  split
  · split
    · exact .inr (.inr ⟨_, rfl⟩)
    split
    · exact .inr (.inr ⟨_, rfl⟩)
    · exact .inr (.inl ⟨_, rfl⟩)
  · omega

/-- A first line is read from its first character on, unless it is at fault before. -/
theorem rejects_firstLine {gaps : Text} (hgaps : ∀ c ∈ gaps, isRowGap c) {c : Char}
    (hc : ¬ isRowGap c) (hescape : c ≠ '\\') (hremark : c ≠ '#') (hbreak : c ≠ '\n') {r : Text}
    (h : Rejects (.within (c :: r) line [(0, 0)] [])) :
    Rejects ⟨gaps ++ c :: r, line, true, [(0, 0)], []⟩ := by
  obtain ⟨col, narrow, hmeasure⟩ := measure_gaps hgaps hc hescape 0 0 line r
  have hstep : LexState.step ⟨gaps ++ c :: r, line, true, [(0, 0)], []⟩ =
      LexState.startLine ⟨gaps ++ c :: r, line, true, [(0, 0)], []⟩ := rfl
  rcases reindent_base col narrow with hre | ⟨columns, hre⟩ | ⟨cause, hre⟩
  · have hstart : LexState.step ⟨gaps ++ c :: r, line, true, [(0, 0)], []⟩ =
        .more [] (.within (c :: r) line [(0, 0)] []) := by
      rw [hstep, LexState.startLine, hmeasure]
      simp [hremark, hbreak, hre, blockTokens]
    refine .of_step hstart ?_ h
    simp only [LexState.size, List.length_append, Bool.false_eq_true, reduceIte]
    omega
  · have hstart : LexState.step ⟨gaps ++ c :: r, line, true, [(0, 0)], []⟩ =
        .more [⟨.indent, line, line, 0⟩] (.within (c :: r) line columns []) := by
      rw [hstep, LexState.startLine, hmeasure]
      simp [hremark, hbreak, hre, blockTokens]
    exact .of_more hstart rfl
  · have hstart : LexState.step ⟨gaps ++ c :: r, line, true, [(0, 0)], []⟩ =
        .last [⟨.fault ⟨cause, line, none⟩, line, line, 0⟩] := by
      rw [hstep, LexState.startLine, hmeasure]
      simp [hremark, hbreak, hre, LexState.fault]
    exact .of_last hstart rfl

/-- A token is read by its first character, unless that is a gap, ends the line, starts a remark or is
a backslash. -/
theorem step_of_not_gap {c : Char} (hc : ¬ isRowGap c) (hescape : c ≠ '\\') (hremark : c ≠ '#')
    (hbreak : c ≠ '\n') (r : Text) (columns : List (Nat × Nat)) (opens : List (Char × Nat)) :
    (LexState.within (c :: r) line columns opens).step =
      (LexState.within (c :: r) line columns opens).tokenAt c r := by
  have hdrop : (c :: r).dropWhile (fun c => c == ' ' || c == '\t' || c == '\x0c') = c :: r :=
    List.dropWhile_cons_of_neg hc
  rw [LexState.step, if_neg (by simp), LexState.token, hdrop]
  simp only [List.head?_cons, beq_iff_eq, Option.some.injEq, hremark, if_false]
  split <;> simp_all

/-- Blanks that are neither gaps nor line breaks belong to no token. -/
theorem tokenAt_blank {c : Char} (hblank : Text.isBlank c) (hgap : ¬ isRowGap c) (hbreak : c ≠ '\n')
    (hreturn : c ≠ '\r') (s : LexState) (r : Text) :
    s.tokenAt c r = .last (s.fault .badCharacter s.line) := by
  have hfacts : isQuote c = false ∧ isAsciiDigit c = false ∧ (c == '.') = false ∧
      (isNameLike c = true ∧ Text.isNameStart c = false ∧ c.toLower ∉ ['r', 'u', 'b', 'f'] ∨
        isNameLike c = false ∧ c.toNat < 0x20 ∧ c ∈ ['\x0b', '\x1c', '\x1d', '\x1e', '\x1f']) := by
    revert hgap hbreak hreturn
    refine Text.forall_blank (P := fun c => ¬ isRowGap c → c ≠ '\n' → c ≠ '\r' →
      isQuote c = false ∧ isAsciiDigit c = false ∧ (c == '.') = false ∧
      (isNameLike c = true ∧ Text.isNameStart c = false ∧ c.toLower ∉ ['r', 'u', 'b', 'f'] ∨
        isNameLike c = false ∧ c.toNat < 0x20 ∧ c ∈ ['\x0b', '\x1c', '\x1d', '\x1e', '\x1f'])) ?_ hblank
    decide +kernel
  obtain ⟨hquote, hdigit, hdot, ⟨hlike, hstart, hlower⟩ | ⟨hlike, hcode, hmem⟩⟩ := hfacts
  · have hname (w : Text) : isName (c :: w) = false := by simp [isName, hstart]
    have hmark (w : Text) : isStringMark (c :: w) = false := by
      simp only [List.mem_cons, List.not_mem_nil, or_false, not_or] at hlower
      simp [isStringMark, hlower]
    rw [LexState.tokenAt, hquote, hdigit, hdot, hlike]
    simp only [List.takeWhile_cons_of_pos hlike, hname, hmark, Bool.and_false, Bool.or_false,
      Bool.false_and, Bool.false_eq_true, if_false, if_true]
    split <;> rfl
  · have hnone : lexMark (c :: r) = none := by
      simp only [List.mem_cons, List.not_mem_nil, or_false] at hmem
      rcases hmem with rfl | rfl | rfl | rfl | rfl <;> rfl
    rw [LexState.tokenAt, hquote, hdigit, hdot, hlike, hnone]
    simp [hcode]

/-- The letters in front of a string literal are two at most. -/
theorem isStringMark_of_length {w : Text} (h : 2 < w.length) : isStringMark w = false := by
  rw [Bool.eq_false_iff]
  intro hmark
  have hshort : (w.map Char.toLower).length ≤ 2 := by
    simp only [isStringMark, Bool.or_eq_true, beq_iff_eq] at hmark
    rcases hmark with (((((((h | h) | h) | h) | h) | h) | h) | h) | h <;> rw [h] <;> decide
  rw [List.length_map] at hshort
  omega

/-- What the lexer asks about the words that continue a block. -/
theorem continuingWords_facts {w : String} (hw : w ∈ continuingWords) :
    2 < w.toList.length ∧ isName w.toList ∧ (∀ c ∈ w.toList, isNameLike c) ∧
      Lexeme.ofWord w = .keyword w := by
  simp only [continuingWords, List.mem_cons, List.not_mem_nil, or_false] at hw
  rcases hw with rfl | rfl | rfl | rfl <;>
    exact ⟨by decide +kernel, by decide +kernel, List.all_eq_true.1 (by decide +kernel), rfl⟩

/-- A word that continues a block is a keyword, or no name at all, where no character follows it that may
go on a name. -/
theorem tokenAt_continuing {w : String} (hw : w ∈ continuingWords) {c : Char} {r rest : Text}
    (hword : w.toList ++ rest = c :: r) (hrest : rest.head?.any Text.isNameRest = false) (s : LexState) :
    s.tokenAt c r = s.emit (.keyword w) rest ∨ s.tokenAt c r = .last (s.fault .badCharacter s.line) := by
  obtain ⟨hlength, hname, hchars, hkeyword⟩ := continuingWords_facts hw
  have hhead : isQuote c = false ∧ isAsciiDigit c = false ∧ (c == '.') = false ∧
      isNameLike c = true := by
    simp only [continuingWords, List.mem_cons, List.not_mem_nil, or_false] at hw
    rcases hw with rfl | rfl | rfl | rfl <;> obtain ⟨rfl, -⟩ := List.cons.inj hword <;> decide
  have hmark (more : Text) : isStringMark (w.toList ++ more) = false :=
    isStringMark_of_length (by rw [List.length_append]; omega)
  have htake : (c :: r).takeWhile isNameLike = w.toList ++ rest.takeWhile isNameLike := by
    rw [← hword, List.takeWhile_append_of_pos hchars]
  have hdrop : (c :: r).drop (w.toList ++ rest.takeWhile isNameLike).length =
      rest.dropWhile isNameLike := by
    have hsplit : c :: r = (w.toList ++ rest.takeWhile isNameLike) ++ rest.dropWhile isNameLike := by
      rw [List.append_assoc, List.takeWhile_append_dropWhile, hword]
    rw [hsplit, List.drop_left]
  rw [LexState.tokenAt, hhead.1, hhead.2.1, hhead.2.2.1, hhead.2.2.2]
  simp only [htake, hdrop, hmark, Bool.and_false, Bool.or_false, Bool.false_and, Bool.false_eq_true,
    if_false, if_true]
  -- the word is followed either by nothing that looks like a name, so that it is the keyword, or by a
  -- character that no name may have, so that what is taken for a name is none
  cases hmore : rest.takeWhile isNameLike with
  | nil =>
      have hsame : rest.dropWhile isNameLike = rest := by
        conv => rhs; rw [← List.takeWhile_append_dropWhile (p := isNameLike) (l := rest), hmore]
        rfl
      left
      simp only [List.append_nil, hname, String.ofList_toList, hkeyword, hsame]
      cases rest <;> rfl
  | cons d more =>
      have hd : Text.isNameRest d = false := by
        cases rest with
        | nil => cases hmore
        | cons d' rest =>
            rw [List.takeWhile_cons] at hmore
            split at hmore
            · obtain ⟨rfl, -⟩ := List.cons.inj hmore
              simpa using hrest
            · cases hmore
      have hnot : isName (w.toList ++ d :: more) = false := by
        cases hw' : w.toList with
        | nil =>
            rw [hw'] at hlength
            exact absurd hlength (by decide)
        | cons a w' => simp [isName, hd]
      right
      rw [hnot]
      split <;> rfl

/-- Whatever blanks stand in front, the first token of a text whose first word continues a block starts
nothing. -/
theorem rejects_continuing {w : String} (hw : w ∈ continuingWords) {rest : Text}
    (hrest : rest.head?.any Text.isNameRest = false) (blanks : Text)
    (hblanks : ∀ c ∈ blanks, Text.isBlank c ∧ c ≠ '\r') (line : Nat) :
    Rejects ⟨blanks ++ (w.toList ++ rest), line, true, [(0, 0)], []⟩ := by
  have hgaps : ∀ c ∈ blanks.takeWhile isRowGap, isRowGap c := fun c hc => List.mem_takeWhile_imp hc
  rw [← List.takeWhile_append_dropWhile (p := isRowGap) (l := blanks), List.append_assoc]
  cases hafter : blanks.dropWhile isRowGap with
  | nil =>
      -- the word is on this line
      obtain ⟨c, r, hword⟩ : ∃ c r, w.toList ++ rest = c :: r := by
        cases hw' : w.toList with
        | nil =>
            simp only [continuingWords, List.mem_cons, List.not_mem_nil, or_false] at hw
            rcases hw with rfl | rfl | rfl | rfl <;> cases hw'
        | cons c r => exact ⟨c, r ++ rest, rfl⟩
      have hhead : ¬ isRowGap c ∧ c ≠ '\\' ∧ c ≠ '#' ∧ c ≠ '\n' := by
        simp only [continuingWords, List.mem_cons, List.not_mem_nil, or_false] at hw
        rcases hw with rfl | rfl | rfl | rfl <;> obtain ⟨rfl, -⟩ := List.cons.inj hword <;> decide
      obtain ⟨hgap, hescape, hremark, hbreak⟩ := hhead
      rw [List.nil_append, hword]
      have hstep : (LexState.within (c :: r) line [(0, 0)] []).step = _ :=
        step_of_not_gap hgap hescape hremark hbreak r _ _
      refine rejects_firstLine hgaps hgap hescape hremark hbreak ?_
      rcases tokenAt_continuing hw hword hrest (.within (c :: r) line [(0, 0)] []) with h | h
      · exact .of_more (hstep.trans h) (by simpa [Lexeme.startsNothing] using hw)
      · exact .of_last (hstep.trans h) rfl
  | cons c after =>
      have hgap : ¬ isRowGap c := fun hc => by
        have := List.head_dropWhile_not isRowGap (l := blanks) (by rw [hafter]; exact List.cons_ne_nil _ _)
        simp [hafter, hc] at this
      have hmem {d : Char} (hd : d ∈ c :: after) : d ∈ blanks :=
        (List.dropWhile_suffix isRowGap).mem (hafter ▸ hd)
      obtain ⟨hblank, hreturn⟩ := hblanks c (hmem List.mem_cons_self)
      have hescape : c ≠ '\\' := fun h => absurd hblank (by rw [h]; decide)
      have hremark : c ≠ '#' := fun h => absurd hblank (by rw [h]; decide)
      by_cases hbreak : c = '\n'
      · -- the line is blank, and the next one is read
        have hlength : after.length < blanks.length := by
          have h := congrArg List.length (List.takeWhile_append_dropWhile (p := isRowGap) (l := blanks))
          rw [hafter, List.length_append, List.length_cons] at h
          omega
        obtain ⟨col, narrow, hmeasure⟩ := measure_gaps hgaps hgap hescape 0 0 line
          (after ++ (w.toList ++ rest))
        have hrest := rejects_continuing hw hrest after
          (fun d hd => hblanks d (hmem (List.mem_cons_of_mem _ hd))) (line + 1)
        have hstart : LexState.step
            ⟨blanks.takeWhile isRowGap ++ (c :: after ++ (w.toList ++ rest)), line, true, [(0, 0)], []⟩ =
              .more [] ⟨after ++ (w.toList ++ rest), line + 1, true, [(0, 0)], []⟩ := by
          rw [LexState.step, if_pos rfl, LexState.startLine, List.cons_append, hmeasure]
          simp [hbreak]
        refine .of_step hstart ?_ hrest
        simp only [LexState.size, List.length_append, List.length_cons, reduceIte]
        omega
      · -- a blank of another kind, which no script may hold
        rw [List.cons_append]
        refine rejects_firstLine hgaps hgap hescape hremark hbreak ?_
        exact .of_last ((step_of_not_gap hgap hescape hremark hbreak _ _ _).trans
          (tokenAt_blank hblank hgap hbreak hreturn _ _)) rfl
termination_by blanks.length

/-- A text whose first word continues a block is no script. -/
theorem check_of_continuing {w : String} (hw : w ∈ continuingWords) {blanks rest : Text}
    (hrest : rest.head?.any Text.isNameRest = false) (hblanks : ∀ c ∈ blanks, Text.isBlank c)
    (hreturn : '\r' ∉ blanks ++ (w.toList ++ rest)) :
    ∃ e, check (blanks ++ (w.toList ++ rest)) = .error e := by
  have hblanks' : ∀ c ∈ blanks, Text.isBlank c ∧ c ≠ '\r' := fun c hc =>
    ⟨hblanks c hc, fun h => hreturn (h ▸ List.mem_append_left _ hc)⟩
  obtain ⟨rest', hrest', hclosed⟩ : ∃ rest' : Text, rest'.head?.any Text.isNameRest = false ∧
      closeLastLine (blanks ++ (w.toList ++ rest)) = blanks ++ (w.toList ++ rest') := by
    rw [closeLastLine]
    split
    · exact ⟨rest, hrest, rfl⟩
    · refine ⟨rest ++ ['\n'], ?_, by simp⟩
      cases rest with
      | nil => decide +kernel
      | cons c rest => exact hrest
  obtain ⟨t, ts, hlex, ht⟩ := rejects_continuing hw hrest' blanks hblanks' 1 _ (Nat.lt_succ_self _)
  have htokens : lex (blanks ++ (w.toList ++ rest)) = t :: ts := by
    rw [lex, unifyBreaks_eq_self hreturn, hclosed]
    exact hlex
  have hfails : Fails (wholeScript (.level (readingLevel (blanks ++ (w.toList ++ rest)) (t :: ts))))
      (t :: ts) := fails_wholeScript _ ht
  obtain ⟨f, hfails⟩ := hfails
  have hparse : parse (blanks ++ (w.toList ++ rest)) = .error (faultLine (t :: ts) f) := by
    rw [parse, htokens, hfails]
  rw [check]
  split
  · exact ⟨_, rfl⟩
  · rw [hparse]
    exact ⟨_, rfl⟩

end

end Stencil.Script
