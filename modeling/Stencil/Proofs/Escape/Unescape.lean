import Stencil.Proofs.Word.Markup

/-!
# Reading escaped texts back

A text that is escaped for HTML can be read back: one pass from the left that puts a character in place of
each reference undoes the escaping (`unescape_html`). Escaping in one pass comes to the same as replacing
the special characters in the whole text, one after the other, as long as `&` is the first of them
(`html_eq_replaceAll`).
-/

namespace Stencil

open Script

namespace Script.Str

/-- A text with every occurrence of a part replaced, from the left. -/
def replaceAll (old new t : Text) : Text :=
  replace old new (t.length + 2) none t

/-- One step of replacing a character: the text is cut where the character stands first. -/
theorem replace_char_succ (c : Char) (new : Text) (n : Nat) (t : Text) :
    replace [c] new (n + 1) none t =
      match Text.cutAt? [c] t with
      | some (before, after) => before ++ new ++ replace [c] new n none after
      | none => t := rfl

/-- A character that is not the one to be replaced stays in front. -/
theorem replace_cons_of_ne {c x : Char} (h : x ≠ c) (new : Text) (n : Nat) (t : Text) :
    replace [c] new (n + 1) none (x :: t) = x :: replace [c] new (n + 1) none t := by
  have hstarts : ¬ [c] <+: x :: t := fun hp => h (List.cons_prefix_cons.1 hp).1.symm
  rw [replace_char_succ, replace_char_succ, Text.cutAt?_cons hstarts]
  cases Text.cutAt? [c] t <;> rfl

/-- With enough steps a character is replaced wherever it stands. -/
theorem replace_char (c : Char) (new : Text) {n : Nat} {t : Text} (h : t.length < n) :
    replace [c] new n none t = t.flatMap fun x => if x = c then new else [x] := by
  induction t generalizing n with
  | nil =>
      cases n with
      | zero => rfl
      | succ n => rfl
  | cons x t ih =>
      obtain ⟨n, rfl⟩ : ∃ k, n = k + 1 := ⟨n - 1, by omega⟩
      have hlength : t.length < n := by simpa using h
      rw [List.flatMap_cons]
      by_cases hx : x = c
      · subst hx
        have hstarts : [x] <+: x :: t := List.cons_prefix_cons.2 ⟨rfl, List.nil_prefix⟩
        rw [if_pos rfl, ← ih hlength, replace_char_succ, Text.cutAt?_of_starts hstarts]
        rfl
      · rw [if_neg hx, replace_cons_of_ne hx, ih (Nat.lt_succ_of_lt hlength)]
        rfl

/-- Replacing a character is replacing it wherever it stands. -/
theorem replaceAll_char (c : Char) (new t : Text) :
    replaceAll [c] new t = t.flatMap fun x => if x = c then new else [x] :=
  replace_char c new (Nat.lt_add_of_pos_right (Nat.succ_pos 1))

end Script.Str

namespace Escape

open Script.Str (replaceAll)

/-- A text with the references for the five special characters read back, in one pass from the left.
Everything else stays as it is. -/
def unescape : Text → Text
  | '&' :: 'a' :: 'm' :: 'p' :: ';' :: t => '&' :: unescape t
  | '&' :: 'l' :: 't' :: ';' :: t => '<' :: unescape t
  | '&' :: 'g' :: 't' :: ';' :: t => '>' :: unescape t
  | '&' :: 'q' :: 'u' :: 'o' :: 't' :: ';' :: t => Char.ofNat 34 :: unescape t
  | '&' :: '#' :: '3' :: '9' :: ';' :: t => Char.ofNat 39 :: unescape t
  | c :: t => c :: unescape t
  | [] => []

/-- A character that begins no reference stays. -/
theorem unescape_cons {c : Char} (h : c ≠ '&') (t : Text) : unescape (c :: t) = c :: unescape t := by
  rw [unescape] <;> intro _ hc <;> exact absurd hc h

/-- What stands for a character is read back as the character. -/
theorem unescape_htmlChar (c : Char) (t : Text) : unescape (htmlChar c ++ t) = c :: unescape t := by
  unfold htmlChar
  split
  · next h => subst h; rfl
  split
  · next h => subst h; rfl
  split
  · next h => subst h; rfl
  split
  · next h => subst h; rfl
  split
  · next h => subst h; rfl
  · next hamp _ _ _ _ => exact unescape_cons hamp t

/-- Escaping goes character by character. -/
theorem html_cons (c : Char) (t : Text) : html (c :: t) = htmlChar c ++ html t :=
  List.flatMap_cons

/-- Escaping texts one behind the other. -/
theorem html_append (s t : Text) : html (s ++ t) = html s ++ html t :=
  List.flatMap_append

/-- Reading an escaped text back gives the text. -/
theorem unescape_html (t : Text) : unescape (html t) = t := by
  induction t with
  | nil => rfl
  | cons c t ih => rw [html_cons, unescape_htmlChar, ih]

/-- A text that already holds references is escaped once more, and comes back as it was. -/
example : html "&lt;b&gt;".toList = "&amp;lt;b&amp;gt;".toList ∧
    unescape "&amp;lt;b&amp;gt;".toList = "&lt;b&gt;".toList := by decide +kernel

/-- A text in which the special characters are replaced by their references one after the other, each of
them in the whole text. -/
def replaced (t : Text) : Text :=
  let t := replaceAll ['&'] "&amp;".toList t
  let t := replaceAll ['<'] "&lt;".toList t
  let t := replaceAll ['>'] "&gt;".toList t
  let t := replaceAll [Char.ofNat 34] "&quot;".toList t
  replaceAll [Char.ofNat 39] "&#39;".toList t

/-- Replacing the characters one after the other comes to the same as escaping: no reference holds a
character that is replaced later, for `&` is the first one. -/
theorem html_eq_replaced (t : Text) : html t = replaced t := by
  simp only [replaced, Script.Str.replaceAll_char, List.flatMap_assoc]
  rw [html]
  congr 1
  funext c
  unfold htmlChar
  split
  · next h => subst h; rfl
  split
  · next h => subst h; rfl
  split
  · next h => subst h; rfl
  split
  · next h => subst h; rfl
  split
  · next h => subst h; rfl
  · next hlt hgt hquote hapostrophe =>
      simp only [List.flatMap_singleton, if_neg hlt, if_neg hgt, if_neg hquote, if_neg hapostrophe]

end Escape

end Stencil
