import Stencil.Encoding

/-!
# Decoding undoes encoding

In every encoding the bytes that a text is written as stand for the text (`Encoding.decode_of_encode`).
UTF-8 and UTF-16 have bytes for every text; the encodings with one byte a character have none for the
characters that they lack.
-/

namespace Stencil

/-! ## UTF-8 -/

namespace Utf8

/-- The codes of characters leave out the surrogates. -/
theorem toNat_cases (c : Char) : c.toNat < 0xd800 ∨ 0xdfff < c.toNat ∧ c.toNat < 0x110000 :=
  c.valid

/-- A byte that continues a character as a number. -/
theorem toNat_continuation (n : Nat) : (continuation n).toNat = 0x80 + n % 64 := by
  rw [continuation, UInt8.toNat_ofNat']
  omega

/-- A number below 256 is that of its byte. -/
theorem toNat_byte {n : Nat} (h : n < 256) : (UInt8.ofNat n).toNat = n := by
  rw [UInt8.toNat_ofNat']
  omega

section

variable {first : UInt8} {acc : Text} {pos start value low high n : Nat} {rest : Bytes}

/-- The first byte of a character of more than one is read. -/
theorem decodeFrom_first {b : UInt8} (hb : 0x80 ≤ b.toNat) {s : State}
    (h : afterFirst? pos b.toNat = some s) :
    decodeFrom first acc pos .between (b :: rest) = decodeFrom b acc (pos + 1) s rest := by
  rw [decodeFrom, if_neg (Nat.not_lt.2 hb), h]

/-- The last byte of a character is read. -/
theorem decodeFrom_last (hlow : low ≤ 0x80 + n % 64) (hhigh : 0x80 + n % 64 ≤ high) :
    decodeFrom first acc pos (.inside start value 1 low high) (continuation n :: rest) =
      decodeFrom first (Char.ofNat (value * 64 + n % 64) :: acc) (pos + 1) .between rest := by
  rw [decodeFrom, toNat_continuation]
  simp [hlow, hhigh]

/-- A byte within a character is read. -/
theorem decodeFrom_inner {left : Nat} (hlow : low ≤ 0x80 + n % 64) (hhigh : 0x80 + n % 64 ≤ high) :
    decodeFrom first acc pos (.inside start value (left + 2) low high) (continuation n :: rest) =
      decodeFrom first acc (pos + 1) (.inside start (value * 64 + n % 64) (left + 1) 0x80 0xbf) rest := by
  rw [decodeFrom, toNat_continuation]
  simp [hlow, hhigh]

/-- The first of three bytes leaves the upper bits, and admits the second one. -/
theorem afterFirst?_three (pos : Nat) (h : 0x800 ≤ n) (h' : n < 0x10000) (hs : n < 0xd800 ∨ 0xdfff < n) :
    ∃ low high, afterFirst? pos (0xe0 + n / 4096) = some (.inside pos (n / 4096) 2 low high) ∧
      low ≤ 0x80 + n / 64 % 64 ∧ 0x80 + n / 64 % 64 ≤ high := by
  by_cases hlow : n / 4096 = 0
  · exact ⟨0xa0, 0xbf, by rw [hlow]; rfl, by omega, by omega⟩
  by_cases hsurrogate : n / 4096 = 0xd
  · exact ⟨0x80, 0x9f, by rw [hsurrogate]; rfl, by omega, by omega⟩
  · refine ⟨0x80, 0xbf, ?_, by omega, by omega⟩
    have hvalue : 0xe0 + n / 4096 - 0xe0 = n / 4096 := by omega
    have hrange : ¬ 0xe0 + n / 4096 ≤ 0xdf ∧ 0xe0 + n / 4096 ≠ 0xe0 ∧ 0xe0 + n / 4096 ≠ 0xed ∧
        0xe1 ≤ 0xe0 + n / 4096 ∧ 0xe0 + n / 4096 ≤ 0xef := by omega
    rw [afterFirst?, hvalue]
    simp only [hrange, decide_true, decide_false, Bool.and_false, Bool.and_true, Bool.false_eq_true,
      if_false, if_true]

/-- The first of four bytes leaves the upper bits, and admits the second one. -/
theorem afterFirst?_four (pos : Nat) (h : 0x10000 ≤ n) (h' : n < 0x110000) :
    ∃ low high, afterFirst? pos (0xf0 + n / 262144) = some (.inside pos (n / 262144) 3 low high) ∧
      low ≤ 0x80 + n / 4096 % 64 ∧ 0x80 + n / 4096 % 64 ≤ high := by
  by_cases hlow : n / 262144 = 0
  · exact ⟨0x90, 0xbf, by rw [hlow]; rfl, by omega, by omega⟩
  by_cases hhigh : n / 262144 = 4
  · exact ⟨0x80, 0x8f, by rw [hhigh]; rfl, by omega, by omega⟩
  · refine ⟨0x80, 0xbf, ?_, by omega, by omega⟩
    have hvalue : 0xf0 + n / 262144 - 0xf0 = n / 262144 := by omega
    have hrange : ¬ 0xf0 + n / 262144 ≤ 0xdf ∧ 0xf0 + n / 262144 ≠ 0xe0 ∧ 0xf0 + n / 262144 ≠ 0xed ∧
        ¬ 0xf0 + n / 262144 ≤ 0xef ∧ 0xf0 + n / 262144 ≠ 0xf0 ∧ 0xf1 ≤ 0xf0 + n / 262144 ∧
        0xf0 + n / 262144 ≤ 0xf3 := by omega
    rw [afterFirst?, hvalue]
    simp only [hrange, decide_true, decide_false, Bool.and_false, Bool.and_true, Bool.false_eq_true,
      if_false, if_true]

end

/-- The bytes of a character are read as the character. -/
theorem decodeFrom_encodeChar (c : Char) (first : UInt8) (acc : Text) (pos : Nat) (rest : Bytes) :
    ∃ first' pos', decodeFrom first acc pos .between (encodeChar c ++ rest) =
      decodeFrom first' (c :: acc) pos' .between rest := by
  have hc := toNat_cases c
  have hofNat {k : Nat} (hk : k = c.toNat) : Char.ofNat k = c := by rw [hk, Char.ofNat_toNat]
  unfold encodeChar
  dsimp only
  generalize c.toNat = n at *
  split
  · next h =>
      refine ⟨first, pos + 1, ?_⟩
      rw [List.cons_append, List.nil_append, decodeFrom, toNat_byte (by omega), if_pos h, hofNat rfl]
  split
  · next h1 h2 =>
      have hfirst : afterFirst? pos (0xc0 + n / 64) = some (.inside pos (n / 64) 1 0x80 0xbf) := by
        have hvalue : 0xc0 + n / 64 - 0xc0 = n / 64 := by omega
        have hrange : 0xc2 ≤ 0xc0 + n / 64 ∧ 0xc0 + n / 64 ≤ 0xdf := by omega
        rw [afterFirst?, hvalue]
        simp [hrange]
      refine ⟨UInt8.ofNat (0xc0 + n / 64), pos + 1 + 1, ?_⟩
      rw [List.cons_append, List.cons_append, List.nil_append,
        decodeFrom_first (by rw [toNat_byte (by omega)]; omega) (by rwa [toNat_byte (by omega)]),
        decodeFrom_last (by omega) (by omega), hofNat (by omega)]
  split
  · next h1 h2 h3 =>
      obtain ⟨low, high, hfirst, hlow, hhigh⟩ :=
        afterFirst?_three pos (by omega : 0x800 ≤ n) h3 (by omega)
      refine ⟨UInt8.ofNat (0xe0 + n / 4096), pos + 1 + 1 + 1, ?_⟩
      rw [List.cons_append, List.cons_append, List.cons_append, List.nil_append,
        decodeFrom_first (by rw [toNat_byte (by omega)]; omega) (by rwa [toNat_byte (by omega)]),
        decodeFrom_inner hlow hhigh, decodeFrom_last (by omega) (by omega), hofNat (by omega)]
  · next h1 h2 h3 =>
      obtain ⟨low, high, hfirst, hlow, hhigh⟩ :=
        afterFirst?_four pos (by omega : 0x10000 ≤ n) (by omega)
      refine ⟨UInt8.ofNat (0xf0 + n / 262144), pos + 1 + 1 + 1 + 1, ?_⟩
      rw [List.cons_append, List.cons_append, List.cons_append, List.cons_append, List.nil_append,
        decodeFrom_first (by rw [toNat_byte (by omega)]; omega) (by rwa [toNat_byte (by omega)]),
        decodeFrom_inner hlow hhigh, decodeFrom_inner (by omega) (by omega),
        decodeFrom_last (by omega) (by omega), hofNat (by omega)]

/-- The bytes of a text are read as the text. -/
theorem decodeFrom_encode (t : Text) (first : UInt8) (acc : Text) (pos : Nat) :
    decodeFrom first acc pos .between (encode t) = .ok (acc.reverse ++ t) := by
  induction t generalizing first acc pos with
  | nil => rw [List.append_nil]; rfl
  | cons c t ih =>
      obtain ⟨first', pos', hread⟩ := decodeFrom_encodeChar c first acc pos (encode t)
      rw [encode, List.flatMap_cons]
      refine hread.trans ?_
      rw [ih, List.reverse_cons, List.append_assoc, List.singleton_append]

/-- Decoding undoes encoding. -/
theorem decode_encode (t : Text) : decode (encode t) = .ok t :=
  decodeFrom_encode t 0 [] 0

/-- Decoding undoes encoding behind a mark. -/
theorem decodeMarked_encode (t : Text) : decodeMarked (mark ++ encode t) = .ok t := by
  rw [decodeMarked, if_pos (List.isPrefixOf_iff_prefix.2 (List.prefix_append _ _))]
  exact decode_encode t

end Utf8

/-! ## UTF-16 -/

namespace Utf16

/-- The bytes of a code unit stand for the unit. -/
theorem Order.unit_bytes (o : Order) {u : Nat} (h : u < 0x10000) :
    ∃ a b, o.bytes u = [a, b] ∧ o.unit a b = u := by
  have hlow := Utf8.toNat_byte (by omega : u % 256 < 256)
  have hhigh := Utf8.toNat_byte (by omega : u / 256 < 256)
  cases o with
  | little => exact ⟨_, _, rfl, by rw [unit, hlow, hhigh]; omega⟩
  | big => exact ⟨_, _, rfl, by rw [unit, hlow, hhigh]; omega⟩

/-- The two code units of a character make up its code. -/
theorem pairCode_split {n : Nat} (h : 0x10000 ≤ n) :
    pairCode (0xd800 + (n - 0x10000) / 0x400) (0xdc00 + (n - 0x10000) % 0x400) = n := by
  have hpair (a b : Nat) : pairCode a b = 0x10000 + (a - 0xd800) * 0x400 + (b - 0xdc00) := rfl
  have hdivide := Nat.div_add_mod (n - 0x10000) 0x400
  rw [hpair, Nat.add_sub_cancel_left, Nat.add_sub_cancel_left]
  omega

/-- The bytes of a character are read as the character. -/
theorem decodeFrom_units (o : Order) (c : Char) (acc : Text) (pos : Nat) (rest : Bytes) :
    ∃ pos', decodeFrom o acc pos ((units c).flatMap o.bytes ++ rest) =
      decodeFrom o (c :: acc) pos' rest := by
  have hc := Utf8.toNat_cases c
  have hofNat {k : Nat} (hk : k = c.toNat) : Char.ofNat k = c := by rw [hk, Char.ofNat_toNat]
  unfold units
  dsimp only
  generalize c.toNat = n at *
  split
  · next h =>
      obtain ⟨a, b, hbytes, hunit⟩ := o.unit_bytes h
      have hhigh : isHigh n = false := by simp [isHigh]; omega
      have hlow : isLow n = false := by simp [isLow]; omega
      refine ⟨pos + 2, ?_⟩
      rw [List.flatMap_singleton, hbytes, List.cons_append, List.cons_append, List.nil_append,
        decodeFrom.eq_def]
      simp only [hunit, hhigh, hlow, Bool.false_eq_true, if_false, hofNat rfl]
  · next h =>
      obtain ⟨a, b, hbytes, hunit⟩ := o.unit_bytes
        (by omega : 0xd800 + (n - 0x10000) / 0x400 < 0x10000)
      obtain ⟨a', b', hbytes', hunit'⟩ := o.unit_bytes
        (by omega : 0xdc00 + (n - 0x10000) % 0x400 < 0x10000)
      have hhigh : isHigh (0xd800 + (n - 0x10000) / 0x400) = true := by simp [isHigh]; omega
      have hlow : isLow (0xdc00 + (n - 0x10000) % 0x400) = true := by simp [isLow]; omega
      have hcode := pairCode_split (Nat.le_of_not_lt h)
      refine ⟨pos + 4, ?_⟩
      rw [List.flatMap_cons, List.flatMap_singleton, hbytes, hbytes']
      simp only [List.cons_append, List.nil_append]
      rw [decodeFrom.eq_def]
      simp only [hunit, hhigh, if_true, hunit', hlow, hcode, hofNat rfl]

/-- The bytes of a text are read as the text. -/
theorem decodeFrom_encode (o : Order) (t : Text) (acc : Text) (pos : Nat) :
    decodeFrom o acc pos (encode o t) = .ok (acc.reverse ++ t) := by
  induction t generalizing acc pos with
  | nil => rw [List.append_nil, encode, List.flatMap_nil, decodeFrom]
  | cons c t ih =>
      obtain ⟨pos', hread⟩ := decodeFrom_units o c acc pos (encode o t)
      rw [encode, List.flatMap_cons]
      refine hread.trans ?_
      rw [ih, List.reverse_cons, List.append_assoc, List.singleton_append]

/-- Decoding undoes encoding. -/
theorem decode_encode (o : Order) (t : Text) : decode o (encode o t) = .ok t :=
  decodeFrom_encode o t [] 0

/-- Decoding undoes encoding behind a mark. -/
theorem decodeMarked_encodeMarked (t : Text) : decodeMarked (encodeMarked t) = .ok t :=
  decodeFrom_encode .little t [] 2

end Utf16

/-! ## Encodings with one byte a character -/

namespace Octet

variable {t : Table}

/-- The bytes of characters stand for the characters. -/
def Table.Inverse (t : Table) : Prop :=
  ∀ c b, t.byte? c = some b → t.char? b = some c

/-- The bytes of a text are read as the text. -/
theorem Table.Inverse.decodeFrom_of_encodeFrom (h : t.Inverse) {text : Text} {acc bytes : Bytes}
    {pos : Nat} (henc : t.encodeFrom acc pos text = .ok bytes) (acc' : Text) (pos' : Nat) :
    ∃ bs, bytes = acc.reverse ++ bs ∧ t.decodeFrom acc' pos' bs = .ok (acc'.reverse ++ text) := by
  induction text generalizing acc pos acc' pos' with
  | nil =>
      cases henc
      exact ⟨[], (List.append_nil _).symm, by rw [List.append_nil]; rfl⟩
  | cons c text ih =>
      rw [encodeFrom] at henc
      split at henc
      · next b hb =>
          obtain ⟨bs, rfl, hread⟩ := ih henc (c :: acc') (pos' + 1)
          refine ⟨b :: bs, by rw [List.reverse_cons, List.append_assoc]; rfl, ?_⟩
          rw [decodeFrom, h c b hb]
          dsimp only
          rw [hread, List.reverse_cons, List.append_assoc]
          rfl
      · cases henc

/-- Decoding undoes encoding. -/
theorem Table.Inverse.decode_of_encode (h : t.Inverse) {text : Text} {bytes : Bytes}
    (henc : t.encode text = .ok bytes) : t.decode bytes = .ok text := by
  obtain ⟨bs, rfl, hread⟩ := h.decodeFrom_of_encodeFrom henc [] 0
  exact hread

/-- The bytes of ASCII. -/
theorem ascii_inverse : ascii.Inverse := by
  intro c b h
  obtain ⟨hc, hb⟩ : c.toNat < 0x80 ∧ UInt8.ofNat c.toNat = b := by simpa [ascii] using h
  have hnat : b.toNat = c.toNat := by rw [← hb, Utf8.toNat_byte (by omega)]
  simp [ascii, hnat, hc]

/-- The bytes of Latin-1. -/
theorem latin1_inverse : latin1.Inverse := by
  intro c b h
  obtain ⟨hc, hb⟩ : c.toNat < 0x100 ∧ UInt8.ofNat c.toNat = b := by simpa [latin1] using h
  have hnat : b.toNat = c.toNat := by rw [← hb, Utf8.toNat_byte hc]
  simp [latin1, hnat]

/-- The bytes of Windows-1252. -/
theorem windows1252_inverse : windows1252.Inverse := by
  intro c b h
  simp only [windows1252] at h ⊢
  split at h
  · next hc =>
      obtain ⟨rfl⟩ := h
      have hrange : c.toNat < 0x80 ∨ 0xa0 ≤ c.toNat ∧ c.toNat < 0x100 := by simpa using hc
      rw [Utf8.toNat_byte (by omega), if_neg (by simp; omega), Char.ofNat_toNat]
  · next hc =>
      obtain ⟨i, hi, rfl⟩ := Option.map_eq_some_iff.1 h
      obtain ⟨hlt, hcode, -⟩ := List.findIdx?_eq_some_iff_getElem.1 hi
      have hlength : i < 32 := hlt
      have hpos : 0x80 ≤ c.toNat := Nat.le_of_not_lt fun hlow => hc (by simp [hlow])
      have hget : windowsCodes[i]? = some c.toNat := by
        rw [List.getElem?_eq_getElem hlt, beq_iff_eq.1 hcode]
      have hbyte : (UInt8.ofNat (0x80 + i)).toNat = 0x80 + i := Utf8.toNat_byte (by omega)
      have hrange : 0x80 + i < 0xa0 := by omega
      simp only [hbyte, Nat.le_add_right, hrange, decide_true, Bool.and_true, if_true,
        Nat.add_sub_cancel_left, hget]
      split
      · next hzero => exact absurd (Option.some.inj hzero) (by omega)
      · next hnone => cases hnone
      · next heq => rw [← Option.some.inj heq, Char.ofNat_toNat]

end Octet

/-- In every encoding the bytes of a text stand for the text. -/
theorem Encoding.decode_of_encode {e : Encoding} {t : Text} {bytes : Bytes}
    (h : e.encode t = .ok bytes) : e.decode bytes = .ok t := by
  cases e with
  | utf8 => cases h; exact Utf8.decode_encode t
  | utf8Marked => cases h; exact Utf8.decodeMarked_encode t
  | ascii => exact Octet.ascii_inverse.decode_of_encode h
  | latin1 => exact Octet.latin1_inverse.decode_of_encode h
  | windows1252 => exact Octet.windows1252_inverse.decode_of_encode h
  | utf16Marked => cases h; exact Utf16.decodeMarked_encodeMarked t
  | utf16Little => cases h; exact Utf16.decode_encode .little t
  | utf16Big => cases h; exact Utf16.decode_encode .big t

end Stencil
