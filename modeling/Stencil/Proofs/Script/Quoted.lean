import Stencil.Script.Literal
import Stencil.Script.Lexer
import Stencil.Text.Quoted

/-!
# Quoted texts as string literals

A text between quotes is written so that the lexer reads it as one string literal on one line, and the
escapes of that literal decode to the text. Each character is treated on its own, so the facts about
whole texts follow by induction from those about `Text.escapeChar`; the main statements are
`lexString_quoted` and `literalText_escaped`.
-/

namespace Stencil.Script

open Text (quoteMark quoted escapeChar codeEscape hexDigit hexDigits isPrintable)

/-! ## Hexadecimal digits -/

/-- The code of a character is below the end of the code space. -/
theorem toNat_lt (c : Char) : c.toNat < 0x110000 := by
  have h := c.valid
  simp only [UInt32.isValidChar, Nat.isValidChar] at h
  simp only [Char.toNat]
  omega

/-- A hexadecimal digit reads back as its value. -/
theorem hexValue?_hexDigit : ∀ n < 16, Json.hexValue? (hexDigit n) = some n := by
  decide

/-- A hexadecimal digit is printable. -/
theorem isPrintable_hexDigit : ∀ n < 16, isPrintable (hexDigit n) := by
  decide

/-- A hexadecimal digit is neither a quote nor a backslash nor a line break. -/
theorem plain_hexDigit :
    ∀ n < 16, isQuote (hexDigit n) = false ∧ hexDigit n ≠ '\\' ∧ hexDigit n ≠ '\n' := by
  decide

/-- The last digit stands behind those of the quotient. -/
theorem hexDigits_succ (width n : Nat) :
    hexDigits (width + 1) n = hexDigits width (n / 16) ++ [hexDigit (n % 16)] := rfl

/-- The digits of a number are as many as asked for. -/
@[simp] theorem length_hexDigits (width n : Nat) : (hexDigits width n).length = width := by
  induction width generalizing n with
  | zero => rfl
  | succ width ih => simp [hexDigits_succ, ih]

/-- The digits of a number are those of numbers below sixteen. -/
theorem mem_hexDigits {width n : Nat} {c : Char} (h : c ∈ hexDigits width n) :
    ∃ d < 16, c = hexDigit d := by
  induction width generalizing n with
  | zero => exact absurd h List.not_mem_nil
  | succ width ih =>
      rw [hexDigits_succ, List.mem_append, List.mem_singleton] at h
      rcases h with h | rfl
      · exact ih h
      · exact ⟨n % 16, Nat.mod_lt n (by omega), rfl⟩

/-- Enough digits of a number read back as the number. -/
theorem hexNumber?_hexDigits {width n : Nat} (h : n < Nat.pow 16 width) :
    Json.hexNumber? (hexDigits width n) = some n := by
  induction width generalizing n with
  | zero =>
      obtain rfl : n = 0 := Nat.lt_one_iff.1 h
      rfl
  | succ width ih =>
      have hquotient : n / 16 < Nat.pow 16 width := by
        have hsucc : Nat.pow 16 (width + 1) = Nat.pow 16 width * 16 := rfl
        omega
      have hdigits := ih hquotient
      have hdigit := hexValue?_hexDigit (n % 16) (Nat.mod_lt n (by omega))
      rw [Json.hexNumber?] at hdigits ⊢
      rw [hexDigits_succ, List.foldlM_append, hdigits]
      simp [hdigit]
      omega

/-- The code of a character stands for the character. -/
theorem hexEscape?_hexDigits {width : Nat} {c : Char} (h : c.toNat < Nat.pow 16 width) (r : Text) :
    hexEscape? width (hexDigits width c.toNat ++ r) = some (c, r) := by
  have htake : (hexDigits width c.toNat ++ r).take width = hexDigits width c.toNat :=
    List.take_left' (length_hexDigits width c.toNat)
  have hdrop : (hexDigits width c.toNat ++ r).drop width = r :=
    List.drop_left' (length_hexDigits width c.toNat)
  have hvalid : ¬ (0xd800 ≤ c.toNat ∧ c.toNat < 0xe000) ∧ ¬ 0x10ffff < c.toNat := by
    have h := c.valid
    simp only [UInt32.isValidChar, Nat.isValidChar] at h
    simp only [Char.toNat]
    omega
  rw [hexEscape?, if_neg (by simp), htake, hdrop, hexNumber?_hexDigits h, Option.bind_some,
    if_neg hvalid.2, Json.charOf, if_neg (by simpa using hvalid.1), Char.ofNat_toNat]

/-! ## One character -/

/-- The mark that quotes a text is a quote. -/
theorem isQuote_quoteMark (t : Text) : isQuote (quoteMark t) := by
  rw [quoteMark]
  split <;> rfl

/-- The ways in which a character is written between marks: behind a backslash as itself or as a letter,
by its code, or as it is. -/
theorem escapeChar_cases {mark : Char} (hmark : isQuote mark) (c : Char) :
    (∃ e, escapeChar mark c = ['\\', e] ∧ letterEscape? e = some c ∧ isPrintable e) ∨
    (∃ w width, escapeChar mark c = '\\' :: w :: hexDigits width c.toNat ∧
      c.toNat < Nat.pow 16 width ∧ (w, width) ∈ [('x', 2), ('u', 4), ('U', 8)]) ∨
    (escapeChar mark c = [c] ∧ c ≠ mark ∧ c ≠ '\\' ∧ isPrintable c) := by
  unfold escapeChar
  split
  · next h =>
      rw [Bool.or_eq_true, decide_eq_true_eq, decide_eq_true_eq] at h
      refine .inl ⟨c, rfl, ?_⟩
      rcases h with rfl | rfl
      · rw [isQuote, Bool.or_eq_true, beq_iff_eq, beq_iff_eq] at hmark
        rcases hmark with rfl | rfl <;> decide
      · decide
  · next h =>
      rw [Bool.or_eq_true, decide_eq_true_eq, decide_eq_true_eq, not_or] at h
      split
      · next hc => exact .inl ⟨'n', rfl, by rw [hc]; decide, by decide⟩
      split
      · next hc => exact .inl ⟨'r', rfl, by rw [hc]; decide, by decide⟩
      split
      · next hc => exact .inl ⟨'t', rfl, by rw [hc]; decide, by decide⟩
      split
      · next hc => exact .inr (.inr ⟨rfl, h.1, h.2, hc⟩)
      · refine .inr (.inl ?_)
        unfold codeEscape
        dsimp only
        split
        · next hlow => exact ⟨'x', 2, rfl, Nat.lt_of_le_of_lt hlow (by decide), by simp⟩
        split
        · next hlow => exact ⟨'u', 4, rfl, Nat.lt_of_le_of_lt hlow (by decide), by simp⟩
        · exact ⟨'U', 8, rfl, Nat.lt_trans (toNat_lt c) (by decide), by simp⟩

/-- What is written for a character is printable. -/
theorem isPrintable_of_mem_escapeChar {mark c d : Char} (hmark : isQuote mark)
    (h : d ∈ escapeChar mark c) : isPrintable d := by
  rcases escapeChar_cases hmark c with ⟨e, he, -, hp⟩ | ⟨w, width, he, -, hw⟩ | ⟨he, -, -, hp⟩
  · rw [he, List.mem_cons, List.mem_singleton] at h
    rcases h with rfl | rfl
    · decide
    · exact hp
  · rw [he, List.mem_cons, List.mem_cons] at h
    rcases h with rfl | rfl | h
    · decide
    · simp only [List.mem_cons, Prod.mk.injEq, List.not_mem_nil, or_false] at hw
      rcases hw with ⟨rfl, -⟩ | ⟨rfl, -⟩ | ⟨rfl, -⟩ <;> decide
    · obtain ⟨n, hn, rfl⟩ := mem_hexDigits h
      exact isPrintable_hexDigit n hn
  · rw [he, List.mem_singleton] at h
    rw [h]
    exact hp

/-! ## The body of a literal -/

/-- A backslash is taken together with what it escapes. -/
theorem stringBody_escape (q c : Char) (triple : Bool) (r : Text) :
    stringBody q triple ('\\' :: c :: r) =
      (stringBody q triple r).map fun x => ('\\' :: c :: x.1, x.2) := rfl

/-- A character that starts no escape ends the body, breaks the line or is taken as it is. -/
theorem stringBody_plain {q c : Char} {triple : Bool} (hescape : c ≠ '\\') (r : Text) :
    stringBody q triple (c :: r) =
      if triple then
        if c = q && [q, q].isPrefixOf r then some ([], r.drop 2)
        else (stringBody q triple r).map fun x => (c :: x.1, x.2)
      else if c = q then some ([], r)
      else if c = '\n' then none
      else (stringBody q triple r).map fun x => (c :: x.1, x.2) := by
  rw [stringBody]
  · exact fun h => absurd h hescape
  · exact fun _ _ h => absurd h hescape

/-- A character of a body that neither ends it nor starts an escape is taken as it is. -/
theorem stringBody_cons {q c : Char} (hq : c ≠ q) (hescape : c ≠ '\\') (hbreak : c ≠ '\n') (r : Text) :
    stringBody q false (c :: r) = (stringBody q false r).map fun x => (c :: x.1, x.2) := by
  rw [stringBody_plain hescape, if_neg Bool.false_ne_true, if_neg hq, if_neg hbreak]

/-- What is written for a character is taken as a whole. -/
theorem stringBody_escapeChar {q : Char} (hq : isQuote q) (c : Char) (r : Text) :
    stringBody q false (escapeChar q c ++ r) =
      (stringBody q false r).map fun x => (escapeChar q c ++ x.1, x.2) := by
  rcases escapeChar_cases hq c with ⟨e, he, -, -⟩ | ⟨w, width, he, -, -⟩ | ⟨he, hmark, hescape, hp⟩
  · rw [he, List.cons_append, List.cons_append, List.nil_append, stringBody_escape]
    rfl
  · have hdigits : ∀ ds : Text, (∀ d ∈ ds, ∃ n < 16, d = hexDigit n) →
        stringBody q false (ds ++ r) = (stringBody q false r).map fun x => (ds ++ x.1, x.2) := by
      intro ds hds
      induction ds with
      | nil => simp
      | cons d ds ih =>
          obtain ⟨n, hn, rfl⟩ := hds d List.mem_cons_self
          have hplain := plain_hexDigit n hn
          have hne : hexDigit n ≠ q := fun h => by simp [h, hq] at hplain
          rw [List.cons_append, stringBody_cons hne hplain.2.1 hplain.2.2,
            ih fun d hd => hds d (List.mem_cons_of_mem _ hd)]
          simp [Function.comp_def]
    have := hdigits (hexDigits width c.toNat) fun d hd => mem_hexDigits hd
    simp [he, stringBody_escape, this, Function.comp_def]
  · have hbreak : c ≠ '\n' := fun h => absurd hp (by rw [h]; decide)
    simp [he, stringBody_cons hmark hescape hbreak]

/-- The body of a literal is what is written for the characters of the text. -/
theorem stringBody_escaped {q : Char} (hq : isQuote q) (t rest : Text) :
    stringBody q false (t.flatMap (escapeChar q) ++ q :: rest) =
      some (t.flatMap (escapeChar q), rest) := by
  induction t with
  | nil =>
      have hescape : q ≠ '\\' := fun h => absurd hq (by rw [h]; decide)
      rw [List.flatMap_nil, List.nil_append, stringBody_plain hescape,
        if_neg Bool.false_ne_true, if_pos rfl]
  | cons c t ih =>
      rw [List.flatMap_cons, List.append_assoc, stringBody_escapeChar hq, ih]
      rfl

/-- A letter behind a backslash decodes to the character that it stands for. -/
theorem decodeEscapes_letter {e d : Char} (h : letterEscape? e = some d) (hbreak : e ≠ '\n')
    (bytes : Bool) (fuel : Nat) (r : Text) :
    decodeEscapes bytes (fuel + 1) ('\\' :: e :: r) = (decodeEscapes bytes fuel r).map (d :: ·) := by
  rw [decodeEscapes.eq_def]
  split
  · simp_all
  · simp_all
  · simp_all
  · next heq =>
      obtain ⟨-, rfl, rfl⟩ : True ∧ _ ∧ _ := by simpa using heq
      simp_all
  · next hplain hfuel heq =>
      simp only [List.cons.injEq] at heq
      exact absurd heq.2.symm (hplain _ _ heq.1.symm)

/-- A code behind a backslash and its letter decodes to its character. -/
theorem decodeEscapes_code {w : Char} {width : Nat} {d : Char} {r r' : Text}
    (hw : (w, width) ∈ [('x', 2), ('u', 4), ('U', 8)]) (h : hexEscape? width r = some (d, r'))
    (fuel : Nat) :
    decodeEscapes false (fuel + 1) ('\\' :: w :: r) = (decodeEscapes false fuel r').map (d :: ·) := by
  rw [decodeEscapes.eq_def]
  simp only [List.mem_cons, Prod.mk.injEq, List.not_mem_nil, or_false] at hw
  rcases hw with ⟨rfl, rfl⟩ | ⟨rfl, rfl⟩ | ⟨rfl, rfl⟩ <;> simp [letterEscape?, h]

/-- A character that is no backslash stays as it is. -/
theorem decodeEscapes_plain {c : Char} (hescape : c ≠ '\\') (bytes : Bool) (fuel : Nat) (r : Text) :
    decodeEscapes bytes (fuel + 1) (c :: r) = (decodeEscapes bytes fuel r).map (c :: ·) := by
  rw [decodeEscapes.eq_def]
  split <;> simp_all

/-- The escapes of a body decode to the text, in one step for each character. -/
theorem decodeEscapes_escaped {q : Char} (hq : isQuote q) (t : Text) (fuel : Nat) :
    decodeEscapes false (t.length + 1 + fuel) (t.flatMap (escapeChar q)) = some t := by
  induction t with
  | nil => simp [decodeEscapes, Nat.add_comm 1 fuel]
  | cons c t ih =>
      have hfuel : (c :: t).length + 1 + fuel = (t.length + 1 + fuel) + 1 := by
        simp only [List.length_cons]
        omega
      rw [hfuel, List.flatMap_cons]
      rcases escapeChar_cases hq c with ⟨e, he, hletter, hp⟩ | ⟨w, width, he, hc, hw⟩ |
        ⟨he, -, hescape, -⟩
      · have hbreak : e ≠ '\n' := fun h => absurd hp (by rw [h]; decide)
        rw [he, List.cons_append, List.cons_append, List.nil_append,
          decodeEscapes_letter hletter hbreak, ih, Option.map_some]
      · rw [he, List.cons_append, List.cons_append,
          decodeEscapes_code hw (hexEscape?_hexDigits hc _), ih, Option.map_some]
      · rw [he, List.cons_append, List.nil_append, decodeEscapes_plain hescape, ih, Option.map_some]

/-! ## Whole texts -/

/-- At least one character is written for each character. -/
theorem length_le_escaped {q : Char} (hq : isQuote q) (t : Text) :
    t.length ≤ (t.flatMap (escapeChar q)).length := by
  induction t with
  | nil => exact Nat.le_refl _
  | cons c t ih =>
      have hpos : 0 < (escapeChar q c).length := by
        rcases escapeChar_cases hq c with ⟨e, he, -⟩ | ⟨w, width, he, -⟩ | ⟨he, -⟩ <;> simp [he]
      simp only [List.length_cons, List.flatMap_cons, List.length_append]
      omega

/-- The first character written for a text is not the mark. -/
theorem head?_escaped_ne {q : Char} (hq : isQuote q) (t : Text) :
    (t.flatMap (escapeChar q)).head? ≠ some q := by
  cases t with
  | nil => simp
  | cons c t =>
      have hescape : '\\' ≠ q := fun h => absurd hq (by rw [← h]; decide)
      rcases escapeChar_cases hq c with ⟨e, he, -⟩ | ⟨w, width, he, -⟩ | ⟨he, hmark, -⟩
      · simp [he, hescape]
      · simp [he, hescape]
      · simp [he, hmark]

/-- Something is written for a text that is not empty. -/
theorem escaped_ne_nil {q : Char} (hq : isQuote q) {t : Text} (ht : t ≠ []) :
    t.flatMap (escapeChar q) ≠ [] := by
  have := length_le_escaped hq t
  intro hnil
  rw [hnil, List.length_nil] at this
  exact ht (List.length_eq_zero_iff.1 (by omega))

/-- A text between quotes is one string literal, and the lexer goes on behind it. -/
theorem lexString_quoted {t : Text} (ht : t ≠ []) (rest : Text) :
    lexString [] (quoteMark t) (quoted t ++ rest) =
      (some (⟨false, false, false, t.flatMap (escapeChar (quoteMark t))⟩, rest), false) := by
  have hq := isQuote_quoteMark t
  have hbody := stringBody_escaped hq t rest
  have hhead := head?_escaped_ne hq t
  have hdrop : (quoted t ++ rest).drop 1 =
      t.flatMap (escapeChar (quoteMark t)) ++ quoteMark t :: rest := by
    simp [quoted]
  rw [lexString, hdrop]
  cases hescaped : t.flatMap (escapeChar (quoteMark t)) with
  | nil => exact absurd hescaped (escaped_ne_nil hq ht)
  | cons a body =>
      rw [hescaped] at hbody hhead
      have ha : a ≠ quoteMark t := fun h => hhead (by rw [h]; rfl)
      cases body with
      | nil => simp_all
      | cons b body => simp_all

/-- The literal of a text between quotes says the text. -/
theorem literalText_escaped {q : Char} (hq : isQuote q) (t : Text) :
    literalText false false (t.flatMap (escapeChar q)) = some t := by
  have hlength := length_le_escaped hq t
  have hdecoded := decodeEscapes_escaped hq t ((t.flatMap (escapeChar q)).length - t.length)
  rw [show t.length + 1 + ((t.flatMap (escapeChar q)).length - t.length) =
    (t.flatMap (escapeChar q)).length + 1 by omega] at hdecoded
  exact hdecoded

/-- A text between quotes holds printable characters only. -/
theorem isPrintable_of_mem_quoted {t : Text} {c : Char} (h : c ∈ quoted t) : isPrintable c := by
  have hq := isQuote_quoteMark t
  have hmark : isPrintable (quoteMark t) := by
    rw [quoteMark]
    split <;> decide
  rw [quoted, List.cons_append, List.mem_cons, List.mem_append, List.mem_singleton,
    List.mem_flatMap] at h
  rcases h with rfl | ⟨d, -, h⟩ | rfl
  · exact hmark
  · exact isPrintable_of_mem_escapeChar hq h
  · exact hmark

end Stencil.Script
