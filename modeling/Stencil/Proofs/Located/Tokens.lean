import Stencil.Proofs.Inset.Lines
import Stencil.Proofs.Text.Lines

/-!
# Where tokens stand

A text is `Located` when each of its characters stands on a line of a kind, closing round brackets and line
breaks apart. So do the tokens of such a text, apart from those with which no node of a tree starts
(`within_lexFrom`), and so does what its string literals hold.
-/

namespace Stencil.Script

open Text (breaks_append breaks_eq_zero isAsciiDigit isAsciiLetter)

/-! ## Located texts -/

/-- Each character of a text that starts on a line stands on a line of a kind, closing round brackets and
line breaks apart. -/
def Located (P : Nat → Prop) (line : Nat) (t : Text) : Prop :=
  ∀ x c y, t = x ++ c :: y → c ≠ ')' → c ≠ '\n' → P (line + Text.breaks x)

variable {P : Nat → Prop} {line : Nat} {r t x y : Text} {c : Char}

namespace Located

theorem nil : Located P line [] := by
  intro x c y h
  simp at h

/-- The first character. -/
theorem head (h : Located P line (c :: r)) (hbracket : c ≠ ')') (hbreak : c ≠ '\n') : P line :=
  h [] c r rfl hbracket hbreak

/-- What is left of a text behind a part of it. -/
theorem right (h : Located P line (x ++ y)) : Located P (line + Text.breaks x) y := by
  rintro z c w rfl hbracket hbreak
  have hline := h (x ++ z) c w (List.append_assoc ..).symm hbracket hbreak
  rwa [breaks_append, ← Nat.add_assoc] at hline

/-- A part at the front. -/
theorem left (h : Located P line (x ++ y)) : Located P line x := by
  rintro z c w rfl
  exact h z c (w ++ y) (by simp)

/-- What is left of a line. -/
theorem onLine (h : Located P line t) (hr : OnLine r t) : Located P line r := by
  obtain ⟨w, hw, rfl⟩ := hr
  have hright := h.right
  rwa [breaks_eq_zero hw] at hright

/-- What is left behind a line break. -/
theorem tail_break (h : Located P line ('\n' :: r)) : Located P (line + 1) r :=
  h.right (x := ['\n'])

/-- What stands on the lines of a kind, with closing brackets and line breaks between. -/
theorem append (hx : Located P line x) (hy : Located P (line + Text.breaks x) y) :
    Located P line (x ++ y) := by
  intro z c w heq hbracket hbreak
  obtain ⟨u, rfl, rfl⟩ | ⟨u, rfl, hw⟩ := List.append_eq_append_iff.1 heq
  · rw [breaks_append, ← Nat.add_assoc]
    exact hy u c w rfl hbracket hbreak
  · cases u with
    | nil =>
        obtain rfl := hw
        rw [List.append_nil] at hy
        exact hy [] c w rfl hbracket hbreak
    | cons d u =>
        obtain ⟨rfl, rfl⟩ := List.cons.inj hw
        exact hx z c u rfl hbracket hbreak

/-- One more character in front, on the same line. -/
theorem cons (hline : P line) (h : Located P line r) (hc : c ≠ '\n') : Located P line (c :: r) := by
  intro x d y heq hbracket hbreak
  cases x with
  | nil => exact hline
  | cons e x =>
      obtain ⟨rfl, rfl⟩ := List.cons.inj heq
      rw [show c :: x = [c] ++ x from rfl, breaks_append, breaks_eq_zero (by simpa using Ne.symm hc),
        Nat.zero_add]
      exact h x d y rfl hbracket hbreak

/-- Closing brackets and line breaks stand anywhere. -/
theorem of_forall (h : ∀ c ∈ t, c = ')' ∨ c = '\n') : Located P line t := by
  rintro x c y rfl hbracket hbreak
  exact ((h c (by simp)).elim hbracket hbreak).elim

end Located

/-! ## Tokens -/

/-- Whether no node of a tree starts with a token: it closes a round bracket, or is about lines and the end
of the text. -/
def Lexeme.isIdle : Lexeme → Bool
  | .op m => m == ")"
  | .newline | .indent | .dedent | .finish | .fault _ => true
  | _ => false

/-- A token stands on a line of a kind if a node may start with it, and so does what a string literal
holds. -/
structure Token.Within (P : Nat → Prop) (t : Token) : Prop where
  line : t.lexeme.isIdle = false → P t.line
  body : ∀ lit, t.lexeme = .string lit → Located P t.line lit.body

/-- All tokens of a list stand on lines of a kind. -/
def Tokens.Within (P : Nat → Prop) (ts : List Token) : Prop :=
  ∀ t ∈ ts, t.Within P

/-- What a step of the lexer leads to stands on lines of a kind: the tokens and the text ahead. -/
def LexStep.Within (P : Nat → Prop) : LexStep → Prop
  | .more ts s => Tokens.Within P ts ∧ Located P s.line s.rest
  | .last ts => Tokens.Within P ts

/-- A token with which no node starts may stand anywhere. -/
theorem Token.Within.of_isIdle {t : Token} (h : t.lexeme.isIdle) : t.Within P where
  line hidle := by
    rw [h] at hidle
    cases hidle
  body lit hlit := by
    rw [hlit] at h
    cases h

namespace Tokens.Within

variable {ts us : List Token}

theorem nil : Tokens.Within P [] := fun _ h => absurd h List.not_mem_nil

theorem append (h : Tokens.Within P ts) (h' : Tokens.Within P us) : Tokens.Within P (ts ++ us) :=
  fun t ht => (List.mem_append.1 ht).elim (h t) (h' t)

theorem single {t : Token} (h : t.Within P) : Tokens.Within P [t] :=
  fun u hu => by rwa [List.mem_singleton.1 hu]

/-- Tokens about blocks. -/
theorem blockTokens (line dedents : Nat) (indents : Bool) :
    Tokens.Within P (blockTokens line dedents indents) := by
  refine append (fun t ht => ?_) ?_
  · rw [List.eq_of_mem_replicate ht]
    exact .of_isIdle rfl
  · cases indents with
    | true => exact single (.of_isIdle rfl)
    | false => exact nil

end Tokens.Within

/-! ## Steps of the lexer -/

section

variable {s : LexState}

/-- A fault ends the tokens. -/
theorem within_fault (s : LexState) (cause : LexCause) (line : Nat) :
    (LexStep.last (s.fault cause line)).Within P :=
  .single (.of_isIdle rfl)

/-- The end of the text. -/
theorem within_finish (s : LexState) : s.finish.Within P := by
  rw [LexState.finish]
  split
  · exact .append (.blockTokens _ _ _) (.single (.of_isIdle rfl))
  · exact within_fault _ _ _

/-- The indentation of a line is measured up to some character, behind joined lines. -/
theorem located_measure {wide narrow fixed line col narrow' line' : Nat} {t t' : Text}
    (h : measure wide narrow fixed line t = .ok (col, narrow', line', t')) (ht : Located P line t) :
    Located P line' t' := by
  fun_induction measure wide narrow fixed line t with
  | case1 wide narrow fixed line r ih => exact ih h (ht.onLine ((OnLine.refl r).cons (by decide)))
  | case2 wide narrow fixed line r ih => exact ih h (ht.onLine ((OnLine.refl r).cons (by decide)))
  | case3 wide narrow fixed line r ih => exact ih h (ht.onLine ((OnLine.refl r).cons (by decide)))
  | case4 => cases h
  | case5 wide narrow fixed line r _ ih =>
      exact ih h (ht.onLine ((OnLine.refl _).cons (by decide))).tail_break
  | case6 => cases h
  | case7 | case8 =>
      cases h
      exact ht

/-- What is left behind a remark and its line break. -/
theorem Located.behindRemark (h : Located P line t) :
    Located P (line + 1) ((t.dropWhile (· ≠ '\n')).drop 1) := by
  have hrest : Located P line (t.dropWhile (· ≠ '\n')) := h.onLine (.dropWhile (by simp) t)
  cases heq : t.dropWhile (· ≠ '\n') with
  | nil => exact .nil
  | cons c r =>
      have hbreak : c = '\n' := by
        have hhead := List.head?_dropWhile_not (p := fun c => decide (c ≠ '\n')) t
        rw [heq] at hhead
        simpa using hhead
      rw [heq, hbreak] at hrest
      exact hrest.tail_break

/-- The start of a line. -/
theorem within_startLine (h : Located P s.line s.rest) : s.startLine.Within P := by
  unfold LexState.startLine
  split
  · exact within_fault _ _ _
  · next line t hmeasure =>
      have ht := located_measure hmeasure h
      split
      · exact within_finish _
      · split
        · exact ⟨.nil, ht.behindRemark⟩
        · split
          · exact ⟨.nil, ht⟩
          · split
            · exact within_fault _ _ _
            · exact ⟨.blockTokens _ _ _, ht⟩

/-- A token that is no string literal. -/
theorem within_emit {x : Lexeme} {r : Text} (hx : x.isIdle = false → P s.line)
    (hstring : ∀ lit, x ≠ .string lit) (hr : Located P s.line r) : (s.emit x r).Within P :=
  ⟨.single ⟨hx, fun lit hlit => (hstring lit hlit).elim⟩, hr⟩

/-- A mark. -/
theorem within_mark {m : String} (hm : m ≠ ")" → P s.line) (hr : Located P s.line r) :
    (s.mark m r).Within P := by
  have hx : (Lexeme.op m).isIdle = false → P s.line := fun hidle => hm (beq_eq_false_iff_ne.1 hidle)
  have hstring (lit : StringLit) : Lexeme.op m ≠ .string lit := Lexeme.noConfusion
  unfold LexState.mark
  repeat' split
  all_goals first
    | exact within_fault _ _ _
    | exact within_emit hx hstring hr

/-- A string is its body between quotes. -/
theorem stringBody_split {q : Char} {triple : Bool} {t body rest : Text}
    (h : stringBody q triple t = some (body, rest)) :
    t = body ++ (if triple then [q, q, q] else [q]) ++ rest := by
  fun_induction stringBody q triple t generalizing body rest with
  | case1 | case2 => cases h
  | case3 c r ih =>
      obtain ⟨⟨b, t⟩, hb, heq⟩ := Option.map_eq_some_iff.1 h
      cases heq
      rw [ih hb]
      rfl
  | case4 c r _ _ htriple hc =>
      cases h
      obtain ⟨hq, hquotes⟩ := Bool.and_eq_true_iff.1 hc
      obtain rfl := of_decide_eq_true hq
      obtain ⟨r, rfl⟩ := List.isPrefixOf_iff_prefix.1 hquotes
      rw [if_pos htriple]
      rfl
  | case5 c r _ _ htriple hc ih =>
      obtain ⟨⟨b, t⟩, hb, heq⟩ := Option.map_eq_some_iff.1 h
      cases heq
      rw [ih hb]
      rfl
  | case6 r htriple _ _ =>
      cases h
      rw [if_neg htriple]
      rfl
  | case7 => cases h
  | case8 c r _ _ htriple hc hbreak ih =>
      obtain ⟨⟨b, t⟩, hb, heq⟩ := Option.map_eq_some_iff.1 h
      cases heq
      rw [ih hb]
      rfl

/-- A string literal behind its letters. -/
theorem within_string {marks : Text} {q : Char} (hq : isQuote q) (hline : P s.line)
    (ht : Located P s.line t) : (s.string marks q (q :: t)).Within P := by
  have hbreak : '\n' ∉ [q] := fun hmem => by
    rw [← List.mem_singleton.1 hmem] at hq
    cases hq
  have hquotes : '\n' ∉ [q, q] := by simpa using hbreak
  -- the opening quotes are on the line on which the body starts
  have hopened : Located P s.line (if [q, q].isPrefixOf t then t.drop 2 else t) := by
    split
    · next hfront =>
        obtain ⟨r, rfl⟩ := List.isPrefixOf_iff_prefix.1 hfront
        exact ht.onLine (.of_append hquotes)
    · exact ht
  unfold LexState.string
  rw [lexString_eq]
  generalize hopen : (if [q, q].isPrefixOf t then t.drop 2 else t) = u at hopened ⊢
  cases hbody : stringBody q ([q, q].isPrefixOf t) u with
  | none => exact within_fault _ _ _
  | some x =>
      obtain ⟨body, rest⟩ := x
      rw [stringBody_split hbody, List.append_assoc] at hopened
      have hclosing : OnLine rest ((if [q, q].isPrefixOf t then [q, q, q] else [q]) ++ rest) := by
        refine .of_append ?_
        split
        · simpa using hbreak
        · exact hbreak
      refine ⟨.single ⟨fun _ => hline, fun lit hlit => ?_⟩, hopened.right.onLine hclosing⟩
      cases hlit
      exact hopened.left

/-- The mark that starts with a closing round bracket. -/
theorem lexMark_bracket (r : Text) : lexMark (')' :: r) = some (")", r) := by
  simp [lexMark, marks3, marks2, marks1, List.isPrefixOf]

/-- One token at its first character. -/
theorem within_tokenAt (h : Located P s.line (c :: r)) (hbreak : c ≠ '\n') :
    (s.tokenAt c r).Within P := by
  have hr : Located P s.line r := h.onLine ((OnLine.refl r).cons hbreak)
  have hline (hbracket : c ≠ ')') : P s.line := h.head hbracket hbreak
  unfold LexState.tokenAt
  dsimp only
  split
  · next hquote => exact within_string hquote (hline fun heq => by rw [heq] at hquote; cases hquote) hr
  · split
    · next hdigit =>
        have hbracket : c ≠ ')' := fun heq => by rw [heq] at hdigit; cases hdigit
        split
        · next n rest hnumber =>
            exact within_emit (fun _ => hline hbracket) (fun _ => Lexeme.noConfusion)
              (hr.onLine (onLine_lexNumber hdigit hnumber))
        · exact within_fault _ _ _
    · split
      · next hname =>
          have hword : P s.line := hline fun heq => by rw [heq] at hname; cases hname
          have hrest : Located P s.line ((c :: r).drop ((c :: r).takeWhile isNameLike).length) := by
            refine h.onLine ⟨(c :: r).takeWhile isNameLike, fun hmem => ?_, ?_⟩
            · exact absurd (List.mem_takeWhile_imp hmem) (by decide)
            · exact (List.prefix_iff_eq_append.1 (List.takeWhile_prefix _))
          have hplain (w : String) (rest : Text) (hrest : Located P s.line rest) :
              (s.emit (Lexeme.ofWord w) rest).Within P := by
            refine within_emit (fun _ => hword) (fun lit => ?_) hrest
            rw [Lexeme.ofWord]
            split <;> exact Lexeme.noConfusion
          split
          · next q t heq =>
              rw [heq] at hrest ⊢
              split
              · next hstring =>
                  rw [Bool.and_eq_true] at hstring
                  have hq : q ≠ '\n' := fun heq => by rw [heq] at hstring; cases hstring.1
                  exact within_string hstring.1 hword (hrest.onLine ((OnLine.refl t).cons hq))
              · split
                · exact hplain _ _ hrest
                · exact within_fault _ _ _
          · next heq =>
              split
              · exact hplain _ _ hrest
              · exact within_fault _ _ _
      · split
        · next m rest hmark =>
            refine within_mark (fun hm => hline fun heq => hm ?_) (hr.onLine (onLine_lexMark hmark).2)
            rw [heq, lexMark_bracket] at hmark
            cases hmark
            rfl
        · next hmark =>
            split
            · exact within_fault _ _ _
            · refine within_emit (fun _ => hline fun heq => ?_) (fun _ => Lexeme.noConfusion) hr
              rw [heq, lexMark_bracket] at hmark
              cases hmark

/-- One token within a line. -/
theorem within_token (h : Located P s.line s.rest) : s.token.Within P := by
  unfold LexState.token
  dsimp only
  -- gaps and a remark in front of a token are on its line
  have hgaps : Located P s.line (s.rest.dropWhile fun c => c == ' ' || c == '\t' || c == '\x0c') :=
    h.onLine (.dropWhile rfl _)
  generalize (s.rest.dropWhile fun c => c == ' ' || c == '\t' || c == '\x0c') = t at hgaps ⊢
  have ht : Located P s.line (if t.head? == some '#' then t.dropWhile (· ≠ '\n') else t) := by
    split
    · exact hgaps.onLine (.dropWhile (by simp) t)
    · exact hgaps
  generalize (if t.head? == some '#' then t.dropWhile (· ≠ '\n') else t) = u at ht ⊢
  split
  · exact within_finish _
  · split
    · exact ⟨.single (.of_isIdle rfl), ht.tail_break⟩
    · exact ⟨.nil, ht.tail_break⟩
  · exact within_fault _ _ _
  · exact ⟨.nil, (ht.onLine ((OnLine.refl _).cons (by decide))).tail_break⟩
  · exact within_fault _ _ _
  · next c r hbreak _ _ _ => exact within_tokenAt ht hbreak

/-- One step of the lexer. -/
theorem within_step (h : Located P s.line s.rest) : s.step.Within P := by
  unfold LexState.step
  split
  · exact within_startLine h
  · exact within_token h

/-- The tokens of a located text stand on lines of the kind. -/
theorem within_lexFrom {fuel : Nat} (h : Located P s.line s.rest) :
    Tokens.Within P (lexFrom fuel s) := by
  induction fuel generalizing s with
  | zero => exact within_fault s _ _
  | succ fuel ih =>
      have hstep := within_step h
      rw [lexFrom]
      cases heq : s.step with
      | more ts s' =>
          rw [heq] at hstep
          exact hstep.1.append (ih hstep.2)
      | last ts =>
          rw [heq] at hstep
          exact hstep

end

/-- A line break at the end. -/
theorem Located.closeLastLine (h : Located P line t) : Located P line (closeLastLine t) := by
  rw [Script.closeLastLine]
  split
  · exact h
  · refine h.append (.of_forall fun c hc => .inr (List.mem_singleton.1 hc))

/-- The tokens of a script. -/
theorem within_lex {source : Text} (h : Located P 1 (unifyBreaks source)) :
    Tokens.Within P (lex source) :=
  within_lexFrom h.closeLastLine

/-- The tokens of a text that is read within round brackets. -/
theorem within_lexInner {source : Text} (hline : P line) (h : Located P line source) :
    Tokens.Within P (lexInner source line) := by
  refine within_lexFrom (Located.closeLastLine (.append ?_ ?_))
  · exact .cons hline h (by decide)
  · exact .of_forall fun c hc => .inl (List.mem_singleton.1 hc)

end Stencil.Script
