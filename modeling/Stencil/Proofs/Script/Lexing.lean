import Stencil.Proofs.Script.Quoted
import Stencil.Proofs.Text.Lines

/-!
# How the lexer comes from one place to another

`Lexes s ts s'` says that the lexer emits the tokens `ts` on its way from the state `s` to the state
`s'`, within the steps that its fuel allows for. There is one lemma for each kind of token, and they
compose by `Lexes.trans`; `lex_eq` turns a way through a whole script into its tokens.
-/

namespace Stencil.Script

open Text (isAsciiDigit isAsciiLetter quoteMark quoted escapeChar)

/-! ## Ways of the lexer -/

/-- A bound on the steps that are left: two for each character, and one for the start of a line. -/
def LexState.size (s : LexState) : Nat :=
  2 * s.rest.length + if s.fresh then 1 else 0

/-- The lexer emits tokens on its way from one state to another. -/
def Lexes (s : LexState) (ts : List Token) (s' : LexState) : Prop :=
  ∃ steps, steps + s'.size ≤ s.size ∧ ∀ fuel, lexFrom (fuel + steps) s = ts ++ lexFrom fuel s'

/-- Nothing is emitted on the way to the same place. -/
theorem Lexes.refl (s : LexState) : Lexes s [] s :=
  ⟨0, by omega, fun _ => rfl⟩

/-- Two ways in a row are one. -/
theorem Lexes.trans {s s' s'' : LexState} {ts ts' : List Token} (h : Lexes s ts s')
    (h' : Lexes s' ts' s'') : Lexes s (ts ++ ts') s'' := by
  obtain ⟨n, hn, hrun⟩ := h
  obtain ⟨n', hn', hrun'⟩ := h'
  refine ⟨n' + n, by omega, fun fuel => ?_⟩
  rw [← Nat.add_assoc, hrun, hrun', List.append_assoc]

/-- A single step that takes up something. -/
theorem Lexes.of_step {s s' : LexState} {ts : List Token} (h : s.step = .more ts s')
    (hsize : s'.size < s.size) : Lexes s ts s' :=
  ⟨1, by omega, fun fuel => by rw [lexFrom, h]⟩

/-- A way to the place where the lexer ends. -/
theorem Lexes.lexFrom_eq {s s' : LexState} {ts last : List Token} (h : Lexes s ts s')
    (hlast : s'.step = .last last) {fuel : Nat} (hfuel : s.size < fuel) :
    lexFrom fuel s = ts ++ last := by
  obtain ⟨n, hn, hrun⟩ := h
  have hsplit : fuel = (fuel - n - 1 + 1) + n := by omega
  rw [hsplit, hrun, lexFrom, hlast]

/-! ## Words -/

/-- Letters, digits and the underscore, in ASCII. -/
def isWordChar (c : Char) : Bool :=
  isAsciiLetter c || isAsciiDigit c || c == '_'

/-- Whether a text is a name of ASCII characters: it does not start with a digit. -/
def isAsciiName : Text → Bool
  | [] => false
  | c :: r => isWordChar c && !isAsciiDigit c && r.all isWordChar

/-- Word characters are ASCII characters. -/
theorem toNat_lt_of_isWordChar {c : Char} (h : isWordChar c) : c.toNat < 0x80 := by
  simp only [isWordChar, isAsciiLetter, isAsciiDigit, Bool.or_eq_true, Bool.and_eq_true,
    decide_eq_true_eq, beq_iff_eq, Char.le_def, UInt32.le_iff_toNat_le] at h
  rcases h with ((⟨-, h⟩ | ⟨-, h⟩) | ⟨-, h⟩) | rfl
  · exact Nat.lt_of_le_of_lt h (by decide)
  · exact Nat.lt_of_le_of_lt h (by decide)
  · exact Nat.lt_of_le_of_lt h (by decide)
  · decide

/-- What holds for the word characters among the ASCII codes holds for every word character. -/
theorem forall_wordChar {P : Char → Prop}
    (h : ∀ n < 0x80, isWordChar (Char.ofNat n) → P (Char.ofNat n)) {c : Char} (hc : isWordChar c) :
    P c := by
  have := h c.toNat (toNat_lt_of_isWordChar hc)
  rw [Char.ofNat_toNat] at this
  exact this hc

/-- What the lexer asks about the characters of words. -/
theorem isWordChar_facts {c : Char} (hc : isWordChar c) :
    isNameLike c ∧ Text.isNameRest c ∧ (isAsciiDigit c || Text.isNameStart c) ∧
      isQuote c = false ∧ Text.isBlank c = false ∧ c ≠ '#' ∧ c ≠ '\\' ∧ c ≠ '.' := by
  have h := forall_wordChar (P := fun c => (isNameLike c && Text.isNameRest c &&
    (isAsciiDigit c || Text.isNameStart c) && !isQuote c && !Text.isBlank c && c != '#' &&
    c != '\\' && c != '.') = true) (by decide +kernel) hc
  simpa [and_assoc] using h

/-- All characters of an ASCII name are word characters. -/
theorem isWordChar_of_mem {w : Text} (hw : isAsciiName w) {c : Char} (hc : c ∈ w) :
    isWordChar c := by
  cases w with
  | nil => exact absurd hc List.not_mem_nil
  | cons d r =>
      simp only [isAsciiName, Bool.and_eq_true, List.all_eq_true] at hw
      rcases List.mem_cons.1 hc with rfl | hc
      · exact hw.1.1
      · exact hw.2 c hc

/-- An ASCII name is a name. -/
theorem isName_of_isAsciiName {w : Text} (hw : isAsciiName w) : isName w := by
  have hchars := fun c => isWordChar_of_mem (c := c) hw
  cases w with
  | nil => exact absurd hw Bool.false_ne_true
  | cons c r =>
      simp only [isAsciiName, Bool.and_eq_true, Bool.not_eq_true'] at hw
      have hstart := (isWordChar_facts hw.1.1).2.2.1
      rw [hw.1.2, Bool.false_or] at hstart
      simp only [isName, Bool.and_eq_true, List.all_eq_true]
      exact ⟨hstart, fun d hd => (isWordChar_facts (hchars d (List.mem_cons_of_mem _ hd))).2.1⟩

/-- Among the ASCII characters, those of names are word characters. -/
theorem isWordChar_of_nameChar {c : Char} (hc : Text.isNameStart c ∨ Text.isNameRest c)
    (hlt : c.toNat < 0x80) : isWordChar c := by
  rw [isWordChar]
  simp only [Text.isNameStart, Text.isNameRest, if_pos hlt, Bool.or_eq_true] at hc ⊢
  rcases hc with (h | h) | (h | h) | h <;> simp [h]

/-- What the lexer asks about the characters of names, which need not be ASCII characters. -/
theorem nameChar_facts {c : Char} (hc : Text.isNameStart c ∨ Text.isNameRest c) :
    isNameLike c ∧ isQuote c = false ∧ Text.isBlank c = false ∧ c ≠ '#' ∧ c ≠ '\\' ∧ c ≠ '.' := by
  rcases Nat.lt_or_ge c.toNat 0x80 with hlt | hge
  · have hfacts := isWordChar_facts (isWordChar_of_nameChar hc hlt)
    exact ⟨hfacts.1, hfacts.2.2.2.1, hfacts.2.2.2.2.1, hfacts.2.2.2.2.2⟩
  · have hascii {d : Char} (hd : d.toNat < 0x80) : c ≠ d := by
      rintro rfl
      exact Nat.not_lt_of_le hge hd
    have hblank : Text.isBlank c = false := Bool.eq_false_iff.2 fun h => by
      rcases hc with hc | hc
      · exact Bool.false_ne_true ((Text.nameless_of_isBlank h).2.1.symm.trans hc)
      · exact Bool.false_ne_true ((Text.nameless_of_isBlank h).2.2.symm.trans hc)
    refine ⟨?_, ?_, hblank, hascii (by decide), hascii (by decide), hascii (by decide)⟩
    · simp [isNameLike, hge]
    · simp [isQuote, hascii (d := Char.ofNat 34) (by decide), hascii (d := Char.ofNat 39) (by decide)]

/-- A name starts with a character that may start one, and goes on with characters of names. -/
theorem isName_cons {c : Char} {r : Text} (h : isName (c :: r)) :
    Text.isNameStart c ∧ ∀ d ∈ r, Text.isNameRest d := by
  rwa [isName, Bool.and_eq_true, List.all_eq_true] at h

/-- All characters of a name are characters of names. -/
theorem nameChar_of_mem {w : Text} (hw : isName w) {c : Char} (hc : c ∈ w) :
    Text.isNameStart c ∨ Text.isNameRest c := by
  cases w with
  | nil => exact absurd hc List.not_mem_nil
  | cons d r =>
      obtain ⟨hstart, hrest⟩ := isName_cons hw
      rcases List.mem_cons.1 hc with rfl | hc
      · exact .inl hstart
      · exact .inr (hrest c hc)

/-- A name does not start with a digit. -/
theorem isAsciiDigit_of_isNameStart {c : Char} (h : Text.isNameStart c) : isAsciiDigit c = false := by
  refine Bool.eq_false_iff.2 fun hdigit => ?_
  have hlt : c.toNat < 0x80 := toNat_lt_of_isWordChar (by simp [isWordChar, hdigit])
  have hword : isWordChar c := isWordChar_of_nameChar (.inl h) hlt
  have hnot : ¬ (Text.isNameStart c && isAsciiDigit c) = true :=
    forall_wordChar (P := fun c => ¬ (Text.isNameStart c && isAsciiDigit c) = true) (by decide +kernel) hword
  exact hnot (by rw [h, hdigit]; rfl)

/-- Whether no word goes on at the start of a text and no string literal begins there. -/
def endsWord (t : Text) : Bool :=
  t.head?.all fun c => !isNameLike c && !isQuote c

/-- A state within a line. -/
abbrev LexState.within (rest : Text) (line : Nat) (columns : List (Nat × Nat))
    (opens : List (Char × Nat)) : LexState :=
  ⟨rest, line, false, columns, opens⟩

section

variable {line : Nat} {columns : List (Nat × Nat)} {opens : List (Char × Nat)}

/-- Gaps in front of another character are skipped. -/
theorem dropWhile_replicate (gaps : Nat) {c : Char} (hblank : Text.isBlank c = false) (r : Text) :
    (List.replicate gaps ' ' ++ c :: r).dropWhile (fun c => c == ' ' || c == '\t' || c == '\x0c') =
      c :: r := by
  have hgap : (c == ' ' || c == '\t' || c == '\x0c') = false := by
    rw [Bool.eq_false_iff]
    intro h
    simp only [Bool.or_eq_true, beq_iff_eq] at h
    rcases h with (rfl | rfl) | rfl <;> exact absurd hblank (by decide)
  induction gaps with
  | zero => simp [hgap]
  | succ gaps ih => simpa [List.replicate_succ] using ih

/-- Behind the gaps a token is read by its first character, unless that starts a remark or is a
backslash. -/
theorem token_cons {s : LexState} (gaps : Nat) {c : Char} {r : Text}
    (hrest : s.rest = List.replicate gaps ' ' ++ c :: r) (hblank : Text.isBlank c = false)
    (hremark : c ≠ '#') (hescape : c ≠ '\\') : s.token = s.tokenAt c r := by
  have hbreak : c ≠ '\n' := fun h => absurd hblank (by rw [h]; decide)
  rw [LexState.token, hrest, dropWhile_replicate gaps hblank]
  simp only [List.head?_cons, beq_iff_eq, Option.some.injEq, hremark, if_false]
  split <;> simp_all

/-- The characters of a word are taken up to its end. -/
theorem takeWhile_word {w rest : Text} (hw : ∀ c ∈ w, isNameLike c) (hrest : endsWord rest) :
    (w ++ rest).takeWhile isNameLike = w := by
  rw [List.takeWhile_append_of_pos hw]
  cases rest with
  | nil => simp
  | cons q rest =>
      simp only [endsWord, List.head?_cons, Option.all_some, Bool.and_eq_true,
        Bool.not_eq_true'] at hrest
      simp [hrest.1]

/-- A name, with gaps in front of it, is one token. -/
theorem lexes_word (gaps : Nat) {w rest : Text} (hw : isName w) (hrest : endsWord rest) :
    Lexes (.within (List.replicate gaps ' ' ++ (w ++ rest)) line columns opens)
      [⟨Lexeme.ofWord (String.ofList w), line, line, opens.length⟩]
      (.within rest line columns opens) := by
  have hchars (c : Char) (hc : c ∈ w) := nameChar_facts (nameChar_of_mem hw hc)
  cases w with
  | nil => exact absurd hw Bool.false_ne_true
  | cons c r =>
      obtain ⟨hlike, hquote, hblank, hremark, hescape, hdot⟩ := hchars c List.mem_cons_self
      have hdigit : isAsciiDigit c = false := isAsciiDigit_of_isNameStart (isName_cons hw).1
      have htake : (c :: (r ++ rest)).takeWhile isNameLike = c :: r :=
        takeWhile_word (w := c :: r) (fun d hd => (hchars d hd).1) hrest
      have hdrop : (c :: (r ++ rest)).drop (c :: r).length = rest := by
        rw [← List.cons_append, List.drop_left]
      refine Lexes.of_step ?_ ?_
      · have hdot : (c == '.') = false := beq_false_of_ne hdot
        rw [LexState.step, if_neg (by simp),
          token_cons (r := r ++ rest) gaps rfl hblank hremark hescape, LexState.tokenAt, hquote,
          hdigit, hdot, hlike]
        simp only [htake, hdrop, hw]
        cases rest with
        | nil => rfl
        | cons q rest =>
            have hq : isQuote q = false := by
              simp only [endsWord, List.head?_cons, Option.all_some, Bool.and_eq_true,
                Bool.not_eq_true'] at hrest
              exact hrest.2
            simp [hq]
            rfl
      · simp [LexState.size]
        omega

/-! ## Marks -/

/-- A mark is looked for where a character belongs to no other token. -/
theorem step_mark {c : Char} {m : String} {r : Text} (hc : c ∈ ['(', ')', ':', '.'])
    (hdigit : c = '.' → r.head?.any isAsciiDigit = false) (hmark : lexMark (c :: r) = some (m, r)) :
    (LexState.within (c :: r) line columns opens).step =
      (LexState.within (c :: r) line columns opens).mark m r := by
  have hfacts : Text.isBlank c = false ∧ isQuote c = false ∧ isAsciiDigit c = false ∧
      isNameLike c = false ∧ c ≠ '#' ∧ c ≠ '\\' := by
    simp only [List.mem_cons, List.not_mem_nil, or_false] at hc
    rcases hc with rfl | rfl | rfl | rfl <;> decide
  obtain ⟨hblank, hquote, hdigit', hlike, hremark, hescape⟩ := hfacts
  have hnumber : (c == '.' && r.head?.any isAsciiDigit) = false := by
    by_cases hdot : c = '.'
    · rw [hdigit hdot, Bool.and_false]
    · rw [beq_false_of_ne hdot, Bool.false_and]
  rw [LexState.step, if_neg (by simp), token_cons 0 rfl hblank hremark hescape,
    LexState.tokenAt, hquote, hdigit', hnumber, hlike]
  simp [hmark]

/-- An opening bracket is a token, and it is open behind it. -/
theorem lexes_open {r : Text} (hopens : opens.length < maxOpen) :
    Lexes (.within ('(' :: r) line columns opens) [⟨.op "(", line, line, opens.length + 1⟩]
      (.within r line columns (('(', line) :: opens)) := by
  refine Lexes.of_step ?_ (by simp [LexState.size])
  rw [step_mark (m := "(") (by simp) (by simp) rfl]
  simp [LexState.mark, LexState.emit, hopens]

/-- A closing bracket is a token, and the bracket is not open behind it. -/
theorem lexes_close {r : Text} {opened : Nat} :
    Lexes (.within (')' :: r) line columns (('(', opened) :: opens))
      [⟨.op ")", line, line, opens.length⟩] (.within r line columns opens) := by
  refine Lexes.of_step ?_ (by simp [LexState.size])
  rw [step_mark (m := ")") (by simp) (by simp) rfl]
  simp [LexState.mark, LexState.emit, closerOf]

/-- A dot is a token before a word. -/
theorem lexes_dot {w : Text} (hw : isAsciiName w) (rest : Text) :
    Lexes (.within ('.' :: (w ++ rest)) line columns opens)
      [⟨.op ".", line, line, opens.length⟩] (.within (w ++ rest) line columns opens) := by
  refine Lexes.of_step ?_ (by simp [LexState.size])
  cases w with
  | nil => exact absurd hw Bool.false_ne_true
  | cons c r =>
      simp only [isAsciiName, Bool.and_eq_true, Bool.not_eq_true'] at hw
      have hdot : ('.' == c) = false :=
        beq_false_of_ne (isWordChar_facts hw.1.1).2.2.2.2.2.2.2.symm
      have hmark : lexMark ('.' :: (c :: r ++ rest)) = some (".", c :: r ++ rest) := by
        simp [lexMark, marks3, marks2, marks1, List.find?, List.isPrefixOf, hdot]
      rw [step_mark (m := ".") (by simp) (fun _ => by simp [hw.1.2]) hmark]
      simp [LexState.mark, LexState.emit]

/-- A colon is a token at the end of a line. -/
theorem lexes_colon (r : Text) :
    Lexes (.within (':' :: '\n' :: r) line columns opens)
      [⟨.op ":", line, line, opens.length⟩] (.within ('\n' :: r) line columns opens) := by
  refine Lexes.of_step ?_ (by simp [LexState.size])
  rw [step_mark (m := ":") (by simp) (by simp) rfl]
  simp [LexState.mark, LexState.emit]

/-! ## String literals -/

/-- A text between quotes is one token on its line. -/
theorem lexes_quoted {t : Text} (ht : t ≠ []) (rest : Text) :
    Lexes (.within (quoted t ++ rest) line columns opens)
      [⟨.string ⟨false, false, false, t.flatMap (escapeChar (quoteMark t))⟩, line, line,
        opens.length⟩]
      (.within rest line columns opens) := by
  have hq := isQuote_quoteMark t
  have hbreaks : Text.breaks (t.flatMap (escapeChar (quoteMark t))) = 0 := by
    refine List.count_eq_zero.2 fun h => ?_
    obtain ⟨c, -, hc⟩ := List.mem_flatMap.1 h
    exact absurd (isPrintable_of_mem_escapeChar hq hc) (by decide)
  have hstring := lexString_quoted ht rest
  have hcons : quoted t ++ rest =
      quoteMark t :: (t.flatMap (escapeChar (quoteMark t)) ++ quoteMark t :: rest) := by
    simp [quoted]
  refine Lexes.of_step ?_ ?_
  · have hblank : Text.isBlank (quoteMark t) = false := by
      rw [isQuote, Bool.or_eq_true, beq_iff_eq, beq_iff_eq] at hq
      rcases hq with h | h <;> rw [h] <;> decide
    have hremark : quoteMark t ≠ '#' := fun h => absurd hq (by rw [h]; decide)
    have hescape : quoteMark t ≠ '\\' := fun h => absurd hq (by rw [h]; decide)
    rw [LexState.step, if_neg (by simp), token_cons 0 (by simpa using hcons) hblank hremark hescape,
      LexState.tokenAt, hq, if_pos rfl, ← hcons, LexState.string, hstring]
    simp [hbreaks]
  · simp [LexState.size, hcons]
    omega

/-! ## Lines -/

/-- The end of a line outside brackets is a token. -/
theorem lexes_newline (r : Text) :
    Lexes (.within ('\n' :: r) line columns []) [⟨.newline, line, line, 0⟩]
      ⟨r, line + 1, true, columns, []⟩ := by
  refine Lexes.of_step ?_ (by simp [LexState.size]; omega)
  rw [LexState.step, if_neg (by simp), LexState.token]
  rfl

/-- The spaces at the start of a line are measured. -/
theorem measure_spaces (n wide narrow : Nat) {c : Char} (hblank : Text.isBlank c = false)
    (hescape : c ≠ '\\') (r : Text) :
    measure wide narrow 0 line (List.replicate n ' ' ++ c :: r) =
      .ok (wide + n, narrow + n, line, c :: r) := by
  induction n generalizing wide narrow with
  | zero =>
      have h1 : c ≠ ' ' := fun h => absurd hblank (by rw [h]; decide)
      have h2 : c ≠ '\t' := fun h => absurd hblank (by rw [h]; decide)
      have h3 : c ≠ '\x0c' := fun h => absurd hblank (by rw [h]; decide)
      simp [measure, h1, h2, h3, hescape]
  | succ n ih =>
      rw [List.replicate_succ, List.cons_append, measure, ih]
      simp only [Except.ok.injEq, Prod.mk.injEq, and_true]
      omega

/-- The indentation of a line is compared with the enclosing ones before its first token. -/
theorem lexes_indentation (n : Nat) {c : Char} {r : Text} (hc : isWordChar c)
    {columns' : List (Nat × Nat)} {dedents : Nat} {indents : Bool}
    (hcolumns : reindent columns n n = .ok (dedents, indents, columns')) :
    Lexes ⟨List.replicate n ' ' ++ c :: r, line, true, columns, []⟩
      (blockTokens line dedents indents) (.within (c :: r) line columns' []) := by
  obtain ⟨-, -, -, -, hblank, hremark, hescape, -⟩ := isWordChar_facts hc
  have hbreak : c ≠ '\n' := fun h => absurd hblank (by rw [h]; decide)
  have hsize : (LexState.within (c :: r) line columns' []).size <
      LexState.size ⟨List.replicate n ' ' ++ c :: r, line, true, columns, []⟩ := by
    rw [LexState.size, LexState.size, List.length_append, List.length_replicate, if_pos rfl,
      if_neg Bool.false_ne_true]
    have hrest : (LexState.within (c :: r) line columns' []).rest = c :: r := rfl
    rw [hrest]
    omega
  refine Lexes.of_step ?_ hsize
  rw [LexState.step, if_pos rfl, LexState.startLine, measure_spaces n 0 0 hblank hescape]
  simp [hremark, hbreak, hcolumns]

/-- At the end of a script the open blocks are closed. -/
theorem step_finish :
    LexState.step ⟨[], line, true, columns, []⟩ =
      .last (blockTokens line (columns.length - 1) false ++ [⟨.finish, line, line, 0⟩]) := by
  simp [LexState.step, LexState.startLine, measure, LexState.finish]

end

/-! ## Whole scripts -/

/-- Without carriage returns the line breaks of a text are uniform. -/
theorem unifyBreaks_eq_self {t : Text} (h : '\r' ∉ t) : unifyBreaks t = t := by
  induction t with
  | nil => rfl
  | cons c r ih =>
      have hc : c ≠ '\r' := fun hc => h (by rw [hc]; exact List.mem_cons_self)
      rw [unifyBreaks, ih fun hr => h (List.mem_cons_of_mem c hr)]
      · exact fun _ h => absurd h hc
      · exact fun h => absurd h hc

/-- The tokens of a script without carriage returns whose last line is closed are those on the way to
its end. -/
theorem lex_eq {source : Text} {ts : List Token} {line : Nat} {columns : List (Nat × Nat)}
    (hreturn : '\r' ∉ source) (hclosed : source = [] ∨ source.getLast? = some '\n')
    (h : Lexes ⟨source, 1, true, [(0, 0)], []⟩ ts ⟨[], line, true, columns, []⟩) :
    lex source =
      ts ++ (blockTokens line (columns.length - 1) false ++ [⟨.finish, line, line, 0⟩]) := by
  have hlast : closeLastLine source = source := by
    rw [closeLastLine, if_pos]
    rcases hclosed with rfl | hclosed
    · rfl
    · simp [hclosed]
  rw [lex, unifyBreaks_eq_self hreturn, hlast]
  exact h.lexFrom_eq step_finish (by simp [LexState.size])

end Stencil.Script
